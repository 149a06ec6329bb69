import Mathlib.Algebra.Order.Group.Nat
import Sirah.Lib.Json
import Sirah.Lib.RunningMax
import Sirah.LimitRange.Quantity
import Sirah.Quota.ResourceQuota

/-!
# What a pod is charged

Model of `parse_pod_cpu` and `parse_pod_memory` of `internal/apiserver/quota_middleware.c` on the parsed pod, with
the readers of quantities they call. `long long` sums and products that overflow have no result.

* Both add up the requests, and raise the total to a container's limit if that is greater. The comment says 'If no
  requests, check limits', but the limit is always looked at, and compared with the total so far
  (`RunningMax`) instead of added.
* `parse_memory_quantity` does not know `k`, `M`, `G`, `T` and `P`, which `validate_resource_quantity` accepts: such
  a text is read as bytes. `parse_cpu_quantity` reads cores as a `double`: from `2 ^ 53` on the number is rounded.

**`charge_right_iff`**: the charge is what the pod asks for **iff** that is the greatest of the sum of the requests
and, for each container, its limit with the requests behind it, as these are read.
-/

namespace Sirah.Quota

open CString RunningMax
open LimitRange (wholePart afterWhole isBlank scanDigits byteUnits)

/-! ## Quantities -/

/-- A `long long`, if the number fits. -/
def longLong (x : Int) : Option Int := if -2 ^ 63 ≤ x ∧ x < 2 ^ 63 then some x else none

/-- `sscanf` with `%lld`: the number, the nearest one that fits, and what follows it. -/
def scanLld (s : CString) : Option (Int × CString) :=
  match s.dropWhile isBlank with
  | 45 :: u => (scanDigits u).map fun n : Nat => (Json.clampInt64 (-n), afterWhole u)
  | 43 :: u => (scanDigits u).map fun n : Nat => (Json.clampInt64 n, afterWhole u)
  | u => (scanDigits u).map fun n : Nat => (Json.clampInt64 n, afterWhole u)

/-- `%31s`: the next word. -/
def scanWord (s : CString) : CString := ((s.dropWhile isBlank).takeWhile fun c => !isBlank c).take 31

/-- The `double` nearest to a number, of two equally near ones the even one. -/
def toDouble (n : Nat) : Nat :=
  let unit := 2 ^ (n.log2 - 52)
  let q := n / unit
  let r := n % unit
  if 2 * r < unit ∨ (2 * r = unit ∧ q % 2 = 0) then q * unit else (q + 1) * unit

/-- `parse_cpu_quantity`. What `%lf` makes of a text with a sign, a point, an exponent or other letters is a
parameter. -/
def parseCpuQuantity (decimalCores : CString → Option Int) : Option CString → Option Int
  | none => some 0
  | some cpuStr =>
    if strstr cpuStr "m" then some (((scanLld cpuStr).map (·.1)).getD 0)
    else if cpuStr ≠ [] ∧ cpuStr.all isDigit then longLong (toDouble (toDouble (decimal cpuStr) * 1000))
    else decimalCores cpuStr

/-- What `parse_memory_quantity` multiplies by. -/
def memoryFactor (unit : CString) : Nat :=
  if unit = "Mi" then 1048576
  else if unit = "Gi" then 1073741824
  else if unit = "Ki" then 1024
  else if unit = "Ei" then 1152921504606846976
  else if unit = "Pi" then 1125899906842624
  else if unit = "Ti" then 1099511627776
  else 1

/-- `parse_memory_quantity`. -/
def parseMemoryQuantity : Option CString → Option Int
  | none => some 0
  | some memStr =>
    match scanLld memStr with
    | none => some 0
    | some (value, rest) => longLong (value * memoryFactor (scanWord rest))

/-! ## Pods -/

section Pods

variable (render : Json → CString)

/-- The quantity of a container in `resources.requests` or `resources.limits`. -/
def quantityAt (part resource : CString) (container : Json) : Option Json :=
  ((container.getEx "resources").bind (·.getEx part)).bind (·.getEx resource)

/-- The total with a request, if there is one. -/
def addRequest (parse : Option CString → Option Int) (total : Int) : Option Json → Option Int
  | none => some total
  | some q => (parse (q.getString render)).bind fun request => longLong (total + request)

/-- The total, or a limit that is greater. -/
def raiseToLimit (parse : Option CString → Option Int) (total : Int) : Option Json → Option Int
  | none => some total
  | some q => (parse (q.getString render)).map fun limit => if limit > total then limit else total

/-- One turn of the loop of `parse_pod_cpu` and `parse_pod_memory`. -/
def addContainer (parse : Option CString → Option Int) (resource : CString) (total : Int) (container : Json) :
    Option Int :=
  (addRequest render parse total (quantityAt "requests" resource container)).bind fun total =>
    raiseToLimit render parse total (quantityAt "limits" resource container)

/-- The containers of a pod: none without the field; what is no array is a failed assertion. -/
def podContainers (root : Json) : Option (List Json) :=
  match (root.getEx "spec").bind (·.getEx "containers") with
  | none => some []
  | some containers => containers.elems

/-- The shape of `parse_pod_cpu` and `parse_pod_memory`. -/
def parsePod (parse : Option CString → Option Int) (resource : CString) (root : Json) : Option Int :=
  (podContainers root).bind fun containers => containers.foldlM (addContainer render parse resource) 0

/-- `parse_pod_cpu`. -/
def parsePodCpu (decimalCores : CString → Option Int) (root : Json) : Option Int :=
  parsePod render (parseCpuQuantity decimalCores) "cpu" root

/-- `parse_pod_memory`. -/
def parsePodMemory (root : Json) : Option Int := parsePod render parseMemoryQuantity "memory" root

/-- `quota_middleware_check_pod_creation`, which takes a default for a charge of 0. -/
def checkPodCreation (m : Manager) (decimalCores : CString → Option Int) (ns : CString) (root : Json)
    (result : AdmissionResult) : Option (Int × AdmissionResult) := do
  let cpu ← parsePodCpu render decimalCores root
  let memory ← parsePodMemory render root
  let cpu := if cpu = 0 then 100 else cpu
  let memory := if memory = 0 then 128 * 1048576 else memory
  return m.canCreatePod ns (.ofInt cpu) (.ofInt memory) result

end Pods

/-! ## What a pod asks for -/

/-- The units of CPU, in millicores. -/
def cpuUnits : List (CString × Nat) := [("", 1000), ("m", 1)]

/-- A number with a unit of a table. -/
def amountOf (table : List (CString × Nat)) (s : CString) : Option Nat :=
  if wholePart s = [] then none else (table.lookup (afterWhole s)).map fun factor => decimal (wholePart s) * factor

/-- The millicores of a text: an integer, or an integer and `m`. -/
def cpuMillicores (s : CString) : Option Nat := amountOf cpuUnits s

/-- The bytes of a text: an integer and a unit. -/
def memoryBytes (s : CString) : Option Nat := amountOf byteUnits s

section Asked

variable (render : Json → CString) (amount : CString → Option Nat) (resource : CString)

/-- The text of a quantity. -/
def quantityText (q : Json) : CString := (q.getString render).getD []

/-- What a container asks for: its request, or its limit when it has none. -/
def asks (container : Json) : Nat :=
  match quantityAt "requests" resource container, quantityAt "limits" resource container with
  | some q, _ => (amount (quantityText render q)).getD 0
  | none, some q => (amount (quantityText render q)).getD 0
  | none, none => 0

/-- **What a pod asks for.** -/
def asked (containers : List Json) : Nat := (containers.map (asks render amount resource)).sum

/-- The quantities of a container are texts of the grammar. -/
def WellWritten (container : Json) : Prop :=
  ∀ part, part = ofString "requests" ∨ part = ofString "limits" → ∀ q, quantityAt part resource container = some q →
    ∃ s, q.getString render = some s ∧ (amount s).isSome = true

end Asked

/-! ## How the texts are read -/

/-- Cores, as they are read and multiplied. -/
def cpuReading (s : CString) : Nat :=
  if afterWhole s = "m" then min (decimal (wholePart s)) (2 ^ 63 - 1)
  else toDouble (toDouble (decimal (wholePart s)) * 1000)

/-- Bytes, as they are read: only the units `Ki` to `Pi` count. -/
def memoryReading (s : CString) : Nat :=
  min (decimal (wholePart s)) (2 ^ 63 - 1) * memoryFactor (afterWhole s)

/-- The request and the limit of a container, as they are read; 0 for what is not there. -/
def readings (render : Json → CString) (reading : CString → Nat) (resource : CString) (container : Json) :
    Nat × Nat :=
  (((quantityAt "requests" resource container).map fun q => reading (quantityText render q)).getD 0,
    ((quantityAt "limits" resource container).map fun q => reading (quantityText render q)).getD 0)

theorem longLong_natCast (n : Nat) : longLong n = if n < 2 ^ 63 then some (n : Int) else none := by
  unfold longLong
  by_cases h : n < 2 ^ 63
  · rw [if_pos ⟨by omega, by omega⟩, if_pos h]
  · rw [if_neg (by omega), if_neg h]

theorem clampInt64_natCast (n : Nat) : Json.clampInt64 n = (min n (2 ^ 63 - 1) : Nat) := by
  unfold Json.clampInt64
  omega

variable {s : CString}

/-- A text that starts with a digit is scanned to what follows its first digits. -/
theorem scanLld_of_digit (h : wholePart s ≠ []) :
    scanLld s = some (((min (decimal (wholePart s)) (2 ^ 63 - 1) : Nat) : Int), afterWhole s) := by
  obtain ⟨c, t, rfl, -, hblank, hminus, hplus⟩ := LimitRange.exists_first_digit h
  unfold scanLld
  rw [List.dropWhile_cons_of_neg hblank]
  split
  · next heq => exact absurd (List.cons.inj heq).1 hminus
  · next heq => exact absurd (List.cons.inj heq).1 hplus
  · have hscan : scanDigits (c :: t) = some (decimal (wholePart (c :: t))) := if_neg h
    rw [hscan, Option.map_some, clampInt64_natCast]

/-- A text with an amount starts with digits, and a unit of the table follows. -/
theorem amountOf_isSome {table : List (CString × Nat)} (h : (amountOf table s).isSome = true) :
    wholePart s ≠ [] ∧ afterWhole s ∈ table.map Prod.fst := by
  unfold amountOf at h
  split at h
  · cases h
  · rename_i hwhole
    rw [Option.isSome_map, List.lookup_isSome_iff] at h
    obtain ⟨p, hp, hkey⟩ := h
    exact ⟨hwhole, List.mem_map.mpr ⟨p, hp, (beq_iff_eq.mp hkey).symm⟩⟩

theorem whole_after (s : CString) : wholePart s ++ afterWhole s = s := List.takeWhile_append_dropWhile

/-- **How CPU is read.** -/
theorem parseCpuQuantity_reading (decimalCores : CString → Option Int) (h : (cpuMillicores s).isSome = true) :
    parseCpuQuantity decimalCores (some s) = longLong (cpuReading s) := by
  obtain ⟨hwhole, hunit⟩ := amountOf_isSome h
  have hno : (109 : UInt8) ∉ wholePart s := fun hmem =>
    absurd (LimitRange.digit_of_mem_wholePart hmem) (by decide)
  have hstr : strstr s ("m" : String) = strstr (afterWhole s) ("m" : String) := by
    conv_lhs => rw [← whole_after s]
    exact strstr_append hno
  have hcases : afterWhole s = [] ∨ afterWhole s = ("m" : String) := by
    simpa [cpuUnits, ofString] using hunit
  unfold parseCpuQuantity cpuReading
  dsimp only
  rw [hstr]
  rcases hcases with hafter | hafter
  · have hs : wholePart s = s := by
      have hparts := whole_after s
      rwa [hafter, List.append_nil] at hparts
    have hne : s ≠ [] := fun hnil => hwhole (hs.trans hnil)
    have hall : s.all isDigit = true := by
      rw [List.all_eq_true]
      intro c hc
      exact LimitRange.digit_of_mem_wholePart (hs.symm ▸ hc)
    rw [hafter, if_neg (by decide), if_pos ⟨hne, hall⟩, if_neg (by decide), hs]
  · rw [hafter, if_pos (by decide), if_pos rfl, scanLld_of_digit hwhole, longLong_natCast, if_pos (by omega)]
    rfl

/-- A unit of bytes is one short word. -/
theorem scanWord_unit : ∀ u ∈ byteUnits.map Prod.fst, scanWord u = u := by decide

/-- **How memory is read.** -/
theorem parseMemoryQuantity_reading (h : (memoryBytes s).isSome = true) :
    parseMemoryQuantity (some s) = longLong (memoryReading s) := by
  obtain ⟨hwhole, hunit⟩ := amountOf_isSome h
  simp only [parseMemoryQuantity, scanLld_of_digit hwhole, scanWord_unit _ hunit, memoryReading, Int.natCast_mul]

/-- A text with an amount is accepted, if the table has units of the validator only. -/
theorem validate_of_amountOf {table : List (CString × Nat)}
    (htable : ∀ u ∈ table.map Prod.fst, u.head? ≠ some 46 ∧ (u = [] ∨ u ∈ LimitRange.units))
    (h : (amountOf table s).isSome = true) : LimitRange.validateResourceQuantity s = true := by
  obtain ⟨hwhole, hunit⟩ := amountOf_isSome h
  obtain ⟨hpoint, hin⟩ := htable _ hunit
  have hrest : LimitRange.unit s = afterWhole s := if_neg hpoint
  rw [LimitRange.validateResourceQuantity_iff, hrest]
  exact ⟨fun hnil => hwhole (List.append_eq_nil_iff.mp hnil).1, hin⟩

/-- **The two grammars are part of what the API accepts.** -/
theorem validate_of_quantity (h : (cpuMillicores s).isSome = true ∨ (memoryBytes s).isSome = true) :
    LimitRange.validateResourceQuantity s = true :=
  h.elim (validate_of_amountOf (by decide)) (validate_of_amountOf (by decide))

/-! ## The loop -/

section Loop

variable {render : Json → CString} {parse : Option CString → Option Int} {amount : CString → Option Nat}
  {reading : CString → Nat} {resource : CString}

/-- What is read of a quantity of the grammar. -/
theorem parse_quantity (hparse : ∀ s, (amount s).isSome = true → parse (some s) = longLong (reading s)) {q : Json}
    (hq : ∃ s, q.getString render = some s ∧ (amount s).isSome = true) :
    parse (q.getString render) = longLong (reading (quantityText render q)) := by
  obtain ⟨s, hs, hsome⟩ := hq
  rw [quantityText, hs, hparse s hsome, Option.getD_some]

/-- What is read of a quantity that may be missing. -/
def readingOf (render : Json → CString) (reading : CString → Nat) (q : Option Json) : Nat :=
  (q.map fun q => reading (quantityText render q)).getD 0

theorem addRequest_eq (hparse : ∀ s, (amount s).isSome = true → parse (some s) = longLong (reading s))
    {q : Option Json} (hq : ∀ j, q = some j → ∃ s, j.getString render = some s ∧ (amount s).isSome = true)
    {total : Nat} (htotal : total < 2 ^ 63) : addRequest render parse total q =
      if readingOf render reading q < 2 ^ 63 ∧ total + readingOf render reading q < 2 ^ 63 then
        some ((total + readingOf render reading q : Nat) : Int)
      else none := by
  cases q with
  | none => exact (if_pos ⟨(by decide : 0 < 2 ^ 63), htotal⟩).symm
  | some q =>
    have hread : readingOf render reading (some q) = reading (quantityText render q) := rfl
    rw [addRequest, parse_quantity hparse (hq q rfl), hread, longLong_natCast]
    by_cases hfits : reading (quantityText render q) < 2 ^ 63
    · rw [if_pos hfits, Option.bind_some, ← Int.natCast_add, longLong_natCast]
      simp only [hfits, true_and]
    · rw [if_neg hfits, if_neg fun h => hfits h.1]
      rfl

theorem raiseToLimit_eq (hparse : ∀ s, (amount s).isSome = true → parse (some s) = longLong (reading s))
    {q : Option Json} (hq : ∀ j, q = some j → ∃ s, j.getString render = some s ∧ (amount s).isSome = true)
    (total : Nat) : raiseToLimit render parse total q =
      if readingOf render reading q < 2 ^ 63 then some ((max total (readingOf render reading q) : Nat) : Int)
      else none := by
  cases q with
  | none =>
    have hzero : max total (readingOf render reading none) = total := Nat.max_eq_left (Nat.zero_le _)
    rw [hzero]
    exact (if_pos (by decide : 0 < 2 ^ 63)).symm
  | some q =>
    have hread : readingOf render reading (some q) = reading (quantityText render q) := rfl
    rw [raiseToLimit, parse_quantity hparse (hq q rfl), hread, longLong_natCast]
    by_cases hfits : reading (quantityText render q) < 2 ^ 63
    · rw [if_pos hfits, if_pos hfits, Option.map_some]
      refine congrArg some ?_
      split <;> omega
    · rw [if_neg hfits, if_neg hfits]
      rfl

/-- **One turn of the loop** raises the total, within 63 bits. -/
theorem addContainer_eq (hparse : ∀ s, (amount s).isSome = true → parse (some s) = longLong (reading s))
    {container : Json} (hwell : WellWritten render amount resource container) {total : Nat}
    (htotal : total < 2 ^ 63) : addContainer render parse resource total container =
      (raiseWithin (2 ^ 63) total (readings render reading resource container)).map fun n : Nat => (n : Int) := by
  have hreadings : readings render reading resource container =
      (readingOf render reading (quantityAt "requests" resource container),
        readingOf render reading (quantityAt "limits" resource container)) := rfl
  rw [addContainer, addRequest_eq hparse (hwell _ (.inl rfl)) htotal, hreadings, raiseWithin]
  by_cases hsum : readingOf render reading (quantityAt "requests" resource container) < 2 ^ 63 ∧
      total + readingOf render reading (quantityAt "requests" resource container) < 2 ^ 63
  · rw [if_pos hsum, Option.bind_some, raiseToLimit_eq hparse (hwell _ (.inr rfl))]
    simp only [hsum.1, hsum.2, true_and]
    split <;> rfl
  · rw [if_neg hsum, if_neg fun h => hsum ⟨h.1, h.2.1⟩]
    rfl

/-- All turns. -/
theorem foldlM_addContainer (hparse : ∀ s, (amount s).isSome = true → parse (some s) = longLong (reading s))
    {containers : List Json} (hwell : ∀ c ∈ containers, WellWritten render amount resource c) {start : Nat}
    (hstart : start < 2 ^ 63) : containers.foldlM (addContainer render parse resource) (start : Int) =
      ((containers.map (readings render reading resource)).foldlM (raiseWithin (2 ^ 63)) start).map
        fun n : Nat => (n : Int) := by
  induction containers generalizing start with
  | nil => rfl
  | cons c cs ih =>
    obtain ⟨hc, hcs⟩ := List.forall_mem_cons.mp hwell
    rw [List.foldlM_cons, List.map_cons, List.foldlM_cons, addContainer_eq hparse hc hstart]
    cases hnext : raiseWithin (2 ^ 63) start (readings render reading resource c) with
    | none => rfl
    | some next =>
      have hlt : next < 2 ^ 63 := by
        unfold raiseWithin at hnext
        split at hnext
        · rename_i hin
          cases hnext
          exact max_lt hin.2.1 hin.2.2
        · cases hnext
      exact ih hcs hlt

/-- **What the loop computes**: the total that is raised, if it fits. -/
theorem parsePod_eq (hparse : ∀ s, (amount s).isSome = true → parse (some s) = longLong (reading s)) {root : Json}
    {containers : List Json} (hroot : podContainers root = some containers)
    (hwell : ∀ c ∈ containers, WellWritten render amount resource c) : parsePod render parse resource root =
      longLong (total 0 (containers.map (readings render reading resource)) : Nat) := by
  rw [parsePod, hroot, Option.bind_some, longLong_natCast]
  refine (foldlM_addContainer hparse hwell (by decide)).trans ?_
  rw [foldlM_within (by decide)]
  split <;> rfl

/-- **The loop computes what is asked for**, exactly if this is the greatest that the readings reach. -/
theorem parsePod_eq_iff (hparse : ∀ s, (amount s).isSome = true → parse (some s) = longLong (reading s))
    {root : Json} {containers : List Json} (hroot : podContainers root = some containers)
    (hwell : ∀ c ∈ containers, WellWritten render amount resource c) {n : Nat} (hn : n < 2 ^ 63) :
    parsePod render parse resource root = some (n : Int) ↔
      IsGreatest (reaches 0 (containers.map (readings render reading resource))) n := by
  rw [parsePod_eq hparse hroot hwell, longLong_natCast, ← total_eq_iff]
  constructor
  · intro h
    split at h
    · exact Int.ofNat.inj (Option.some.inj h)
    · cases h
  · intro h
    rw [h, if_pos hn]

end Loop

/-! ## The charge -/

/-- **The charge of a pod is what it asks for.** -/
structure RightCharge (render : Json → CString) (decimalCores : CString → Option Int) (root : Json)
    (containers : List Json) : Prop where
  cpu : parsePodCpu render decimalCores root = some (asked render cpuMillicores "cpu" containers : Int)
  memory : parsePodMemory render root = some (asked render memoryBytes "memory" containers : Int)

/-- **The charge is right**, exactly if what the pod asks for is the greatest of the sum of the requests and, for
each container, its limit with the requests behind it, as these are read. -/
theorem charge_right_iff {render : Json → CString} {decimalCores : CString → Option Int} {root : Json}
    {containers : List Json} (hroot : podContainers root = some containers)
    (hcpu : ∀ c ∈ containers, WellWritten render cpuMillicores "cpu" c)
    (hmemory : ∀ c ∈ containers, WellWritten render memoryBytes "memory" c)
    (hcpus : asked render cpuMillicores "cpu" containers < 2 ^ 63)
    (hmemories : asked render memoryBytes "memory" containers < 2 ^ 63) :
    RightCharge render decimalCores root containers ↔
      IsGreatest (reaches 0 (containers.map (readings render cpuReading "cpu")))
          (asked render cpuMillicores "cpu" containers) ∧
        IsGreatest (reaches 0 (containers.map (readings render memoryReading "memory")))
          (asked render memoryBytes "memory" containers) := by
  have hc := parsePod_eq_iff (fun _ => parseCpuQuantity_reading decimalCores) hroot hcpu hcpus
  have hm := parsePod_eq_iff (fun _ => parseMemoryQuantity_reading) hroot hmemory hmemories
  exact ⟨fun h => ⟨hc.mp h.cpu, hm.mp h.memory⟩, fun h => ⟨hc.mpr h.1, hm.mpr h.2⟩⟩

/-- What is asked for does not depend on the order of the containers. -/
theorem asked_perm (render : Json → CString) (amount : CString → Option Nat) (resource : CString)
    {containers containers' : List Json} (h : containers.Perm containers') :
    asked render amount resource containers = asked render amount resource containers' :=
  (h.map _).sum_eq

/-- A container with requests and limits on CPU and memory. -/
def container (requests limits : List (CString × Json)) : Json :=
  .obj [("resources", .obj [("requests", .obj requests), ("limits", .obj limits)])]

/-- A pod. -/
def pod (containers : List Json) : Json := .obj [("spec", .obj [("containers", .arr containers)])]

theorem podContainers_pod (containers : List Json) : podContainers (pod containers) = some containers := rfl

theorem wellWritten_container {render : Json → CString} {amount : CString → Option Nat} {resource : CString}
    {requests limits : List (CString × Json)}
    (h : ∀ q, Json.lookup resource requests = some q ∨ Json.lookup resource limits = some q →
      ∃ s, q = .str s ∧ (amount s).isSome = true) : WellWritten render amount resource (container requests limits) := by
  rintro part (rfl | rfl) q hq
  · obtain ⟨s, rfl, hs⟩ := h q (.inl hq)
    exact ⟨s, rfl, hs⟩
  · obtain ⟨s, rfl, hs⟩ := h q (.inr hq)
    exact ⟨s, rfl, hs⟩

/-- A container whose requests are its limits. -/
def fixed : Json :=
  let quantities : List (CString × Json) := [("cpu", .str ("100m" : String)), ("memory", .str ("64Mi" : String))]
  container quantities quantities

/-- Two such containers. -/
theorem fixed_charge_right : RightCharge (fun _ => []) (fun _ => none) (pod [fixed, fixed]) [fixed, fixed] := by
  have hcpu : WellWritten (fun _ => []) cpuMillicores "cpu" fixed := by
    refine wellWritten_container ?_
    rintro q (hq | hq)
    · cases hq
      exact ⟨_, rfl, by decide⟩
    · cases hq
      exact ⟨_, rfl, by decide⟩
  have hmemory : WellWritten (fun _ => []) memoryBytes "memory" fixed := by
    refine wellWritten_container ?_
    rintro q (hq | hq)
    · cases hq
      exact ⟨_, rfl, by decide⟩
    · cases hq
      exact ⟨_, rfl, by decide⟩
  refine (charge_right_iff (podContainers_pod _) ?_ ?_ (by decide +kernel) (by decide +kernel)).mpr
    ⟨total_eq_iff.mp (by decide +kernel), total_eq_iff.mp (by decide +kernel)⟩
  · simp [hcpu]
  · simp [hmemory]

/-- Two containers with a limit of a mebibyte each, and no request: the second limit is not greater than the
total. -/
theorem limits_not_added : ¬ RightCharge (fun _ => []) (fun _ => none)
    (pod [container [] [("memory", .str ("1Mi" : String))], container [] [("memory", .str ("1Mi" : String))]])
    [container [] [("memory", .str ("1Mi" : String))], container [] [("memory", .str ("1Mi" : String))]] := by
  intro h
  have hmemory := h.memory
  revert hmemory
  decide +kernel

end Sirah.Quota
