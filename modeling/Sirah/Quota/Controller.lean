import Sirah.Lib.CString
import Sirah.Lib.KeyedSum
import Sirah.Lib.Run
import Sirah.Lib.Signed

/-!
# The quota controller

Model of `pkg/types/quota.c` and of the quotas of `internal/controller/quota_controller.c`: a table of
quotas, each with its hard limits and its usage. A request is admitted if the usage of every quota of the
namespace stays within the limits with it; usage is recorded and released on every quota of the namespace.

A quantity has six fields, three of type `long long` and three of type `int`. It is a signed word for each
field, and the functions of the source that go through the fields in order are one definition over them.

* `Charged`: what the controller promises. The usage of a quota is the sum of the amounts recorded in its
  namespace and not released, and within its limits.
* **`charged_iff`**: it is kept along a run of admitted records and matched releases **iff** every record,
  when it is made, would still be admitted and overflows no counter.
* `huge_amount_admitted`: an amount whose sum overflows is admitted.
-/

namespace Sirah.QuotaController

open Runs

/-! ## Quantities -/

/-- The fields of `k8s_resource_quantity_t`. -/
inductive Resource where
  | cpuMillicores
  | memoryBytes
  | storageBytes
  | podsCount
  | servicesCount
  | deploymentsCount
  deriving DecidableEq, Repr

/-- The fields in the order of the source. -/
def Resource.all : List Resource :=
  [.cpuMillicores, .memoryBytes, .storageBytes, .podsCount, .servicesCount, .deploymentsCount]

theorem Resource.mem_all (r : Resource) : r ∈ Resource.all := by cases r <;> decide

/-- `long long` or `int`. -/
def Resource.width : Resource → Nat
  | .cpuMillicores | .memoryBytes | .storageBytes => 64
  | .podsCount | .servicesCount | .deploymentsCount => 32

/-- `k8s_resource_quantity_t`. -/
@[ext]
structure Quantity where
  field : (r : Resource) → BitVec r.width

instance : DecidableEq Quantity := fun a b =>
  decidable_of_iff ((Resource.all.all fun r => a.field r == b.field r) = true) <| by
    rw [List.all_eq_true, Quantity.ext_iff, funext_iff]
    exact ⟨fun h r => beq_iff_eq.mp (h r r.mem_all), fun h r _ => beq_iff_eq.mpr (h r)⟩

/-- `k8s_resource_quantity_new`: all fields zero. -/
def Quantity.zero : Quantity := ⟨fun r => 0#r.width⟩

/-- `k8s_resource_quantity_add`. -/
def Quantity.add (total qty : Quantity) : Quantity := ⟨fun r => total.field r + qty.field r⟩

/-- A difference that is not below zero. -/
def clampedSub {w : Nat} (a b : BitVec w) : BitVec w := if (a - b).slt 0#w then 0#w else a - b

/-- `k8s_resource_quantity_subtract`, no field below zero. -/
def Quantity.subtract (total qty : Quantity) : Quantity := ⟨fun r => clampedSub (total.field r) (qty.field r)⟩

/-- `k8s_resource_quantity_exceeds`. -/
def Quantity.exceeds (used limit : Quantity) : Bool :=
  Resource.all.any fun r => (limit.field r).slt (used.field r)

/-- The field as a number. -/
def Quantity.value (q : Quantity) (r : Resource) : Int := (q.field r).toInt

/-- No field is negative. -/
def Quantity.Nonneg (q : Quantity) : Prop := ∀ r, 0 ≤ q.value r

theorem Quantity.value_zero (r : Resource) : Quantity.zero.value r = 0 := BitVec.toInt_zero

theorem Quantity.not_exceeds_iff {used limit : Quantity} :
    used.exceeds limit = false ↔ ∀ r, used.value r ≤ limit.value r := by
  unfold Quantity.exceeds Quantity.value
  rw [List.any_eq_false]
  refine ⟨fun h r => ?_, fun h r _ => ?_⟩
  · exact Int.not_lt.mp (mt BitVec.slt_iff_toInt_lt.mpr (h r r.mem_all))
  · exact mt BitVec.slt_iff_toInt_lt.mp (Int.not_lt.mpr (h r))

theorem Quantity.value_add_eq_iff {a b : Quantity} (ha : a.Nonneg) (hb : b.Nonneg) (r : Resource) :
    (a.add b).value r = a.value r + b.value r ↔ a.value r + b.value r < 2 ^ (r.width - 1) :=
  BitVec.toInt_add_eq_iff (ha r) (hb r)

/-- The clamp does nothing where there is enough to take. -/
theorem toInt_clampedSub {w : Nat} {a b : BitVec w} (hb : 0 ≤ b.toInt) (h : b.toInt ≤ a.toInt) :
    (clampedSub a b).toInt = a.toInt - b.toInt := by
  have hsub : (a - b).toInt = a.toInt - b.toInt := BitVec.toInt_sub_of_le hb h
  have hpos : ¬ (a - b).slt 0#w := by
    rw [BitVec.slt_iff_toInt_lt, hsub, BitVec.toInt_zero]
    omega
  unfold clampedSub
  rw [if_neg hpos, hsub]

/-! ## Quotas -/

/-- `k8s_resource_quota_t`: its key, `spec->hard_limits` and `status->used`. -/
structure ResourceQuota where
  name : CString
  ns : CString
  hard : Quantity
  used : Quantity

/-- `k8s_resource_quota_new`: no limit is set and nothing used. -/
def ResourceQuota.new (name ns : CString) : ResourceQuota := ⟨name, ns, .zero, .zero⟩

/-- `k8s_resource_quota_can_admit`. -/
def ResourceQuota.canAdmit (q : ResourceQuota) (requested : Quantity) : Bool :=
  !(q.used.add requested).exceeds q.hard

/-- `k8s_resource_quota_add_usage`. -/
def ResourceQuota.addUsage (q : ResourceQuota) (qty : Quantity) : ResourceQuota :=
  { q with used := q.used.add qty }

/-- `k8s_resource_quota_subtract_usage`. -/
def ResourceQuota.subtractUsage (q : ResourceQuota) (qty : Quantity) : ResourceQuota :=
  { q with used := q.used.subtract qty }

/-- `k8s_quota_controller_t`, its quotas. -/
structure Controller where
  maxQuotas : Nat
  quotas : List ResourceQuota
  enabled : Bool

/-- `k8s_quota_controller_new`. -/
def Controller.new (maxQuotas : Nat) : Controller := ⟨maxQuotas, [], true⟩

/-- Is it the quota of this name and namespace? -/
def ResourceQuota.hasKey (name ns : CString) (q : ResourceQuota) : Bool := q.name == name && q.ns == ns

/-- `k8s_quota_controller_create_quota`. -/
def Controller.createQuota (c : Controller) (quota : ResourceQuota) : Controller × Int :=
  if c.maxQuotas ≤ c.quotas.length ∨ c.quotas.any (ResourceQuota.hasKey quota.name quota.ns) then (c, -1)
  else ({ c with quotas := c.quotas ++ [quota] }, 0)

/-- `k8s_quota_controller_list_quotas`. -/
def Controller.listQuotas (c : Controller) (ns : CString) : List ResourceQuota :=
  c.quotas.filter fun q => q.ns == ns

/-- `k8s_quota_controller_can_admit_resource`. -/
def Controller.canAdmitResource (c : Controller) (ns : CString) (requested : Quantity) : Bool :=
  !c.enabled || (c.listQuotas ns).all fun q => q.canAdmit requested

/-- The quotas of a namespace are changed by `f`. -/
def Controller.change (c : Controller) (ns : CString) (f : ResourceQuota → ResourceQuota) : Controller :=
  { c with quotas := c.quotas.map fun q => if q.ns == ns then f q else q }

/-- `k8s_quota_controller_record_resource_usage`. -/
def Controller.recordResourceUsage (c : Controller) (ns : CString) (used : Quantity) : Controller :=
  c.change ns fun q => q.addUsage used

/-- `k8s_quota_controller_release_resource_usage`. -/
def Controller.releaseResourceUsage (c : Controller) (ns : CString) (used : Quantity) : Controller :=
  c.change ns fun q => q.subtractUsage used

theorem Controller.canAdmitResource_iff {c : Controller} (henabled : c.enabled = true) {ns : CString}
    {requested : Quantity} : c.canAdmitResource ns requested = true ↔
      ∀ q ∈ c.quotas, q.ns = ns → ∀ r, (q.used.add requested).value r ≤ q.hard.value r := by
  simp only [Controller.canAdmitResource, henabled, Bool.not_true, Bool.false_or, Controller.listQuotas,
    List.all_filter, List.all_eq_true, ResourceQuota.canAdmit, ← Quantity.not_exceeds_iff, Bool.or_eq_true,
    Bool.not_eq_true', beq_eq_false_iff_ne]
  exact forall₂_congr fun q _ => imp_iff_not_or.symm

theorem Controller.mem_change {c : Controller} {ns : CString} {f : ResourceQuota → ResourceQuota}
    {q : ResourceQuota} : q ∈ (c.change ns f).quotas ↔
      ∃ q₀ ∈ c.quotas, q = if q₀.ns = ns then f q₀ else q₀ := by
  simp only [Controller.change, List.mem_map, beq_iff_eq]
  exact exists_congr fun q₀ => and_congr_right fun _ => eq_comm

/-! ## Runs -/

/-- An amount used in a namespace. -/
structure Charge where
  ns : CString
  amount : Quantity
  deriving DecidableEq

/-- The controller, the charges that were admitted and not recorded yet, and those recorded and not
released. -/
structure World where
  controller : Controller
  admitted : List Charge
  recorded : List Charge

inductive Op where
  /-- `k8s_quota_controller_can_admit_resource` is asked. -/
  | canAdmitResource (charge : Charge)
  | record (charge : Charge)
  | release (charge : Charge)

def step (w : World) : Op → World
  | .canAdmitResource charge =>
    { w with
      admitted := if w.controller.canAdmitResource charge.ns charge.amount then w.admitted ++ [charge]
        else w.admitted }
  | .record charge =>
    { controller := w.controller.recordResourceUsage charge.ns charge.amount
      admitted := w.admitted.erase charge
      recorded := w.recorded ++ [charge] }
  | .release charge =>
    { w with
      controller := w.controller.releaseResourceUsage charge.ns charge.amount
      recorded := w.recorded.erase charge }

/-- Amounts are not negative, recorded after they were admitted and released after they were recorded. -/
def Paired (w : World) : Op → Prop
  | .canAdmitResource _ => True
  | .record charge => charge.amount.Nonneg ∧ charge ∈ w.admitted
  | .release charge => charge ∈ w.recorded

/-- The sum of a field over the charges of a namespace. -/
def total (charges : List Charge) (r : Resource) (ns : CString) : Int :=
  charges.sumAt Charge.ns (fun charge => charge.amount.value r) ns

/-- **What the controller promises**: the usage is the sum of what is recorded and not released, and within
the limits. -/
def Charged (w : World) : Prop :=
  ∀ q ∈ w.controller.quotas, ∀ r,
    q.used.value r = total w.recorded r q.ns ∧ q.used.value r ≤ q.hard.value r

/-- A record is made when the amount would still be admitted, and no counter overflows. -/
def Current (w : World) : Op → Prop
  | .record charge =>
    w.controller.canAdmitResource charge.ns charge.amount = true ∧
      ∀ q ∈ w.controller.quotas, q.ns = charge.ns → ∀ r,
        q.used.value r + charge.amount.value r < 2 ^ (r.width - 1)
  | _ => True

/-- A controller in use, over charges that are not negative. -/
structure Sane (w : World) : Prop where
  enabled : w.controller.enabled = true
  nonneg : ∀ charge ∈ w.recorded, charge.amount.Nonneg

variable {w : World} {op : Op} {charge : Charge}

theorem Sane.step (h : Sane w) (hpaired : Paired w op) : Sane (step w op) := by
  cases op with
  | canAdmitResource charge => exact ⟨h.enabled, h.nonneg⟩
  | record charge =>
    refine ⟨h.enabled, fun c hc => ?_⟩
    rcases List.mem_append.mp hc with hc | hc
    · exact h.nonneg c hc
    · rw [List.mem_singleton.mp hc]
      exact hpaired.1
  | release charge => exact ⟨h.enabled, fun c hc => h.nonneg c (List.mem_of_mem_erase hc)⟩

theorem total_append (charges : List Charge) (r : Resource) (ns : CString) :
    total (charges ++ [charge]) r ns =
      total charges r ns + if charge.ns = ns then charge.amount.value r else 0 :=
  List.sumAt_append_singleton

theorem total_erase {charges : List Charge} (h : charge ∈ charges) (r : Resource) (ns : CString) :
    total charges r ns =
      total (charges.erase charge) r ns + if charge.ns = ns then charge.amount.value r else 0 :=
  List.sumAt_erase h

theorem total_nonneg {charges : List Charge} (h : ∀ charge ∈ charges, charge.amount.Nonneg) (r : Resource)
    (ns : CString) : 0 ≤ total charges r ns :=
  List.sumAt_nonneg fun charge hc => h charge hc r

/-- **A record keeps the promise exactly if it is current.** -/
theorem charged_record_iff (hs : Sane w) (hc : charge.amount.Nonneg) (h : Charged w) :
    Charged (step w (.record charge)) ↔ Current w (.record charge) := by
  have hused : ∀ q ∈ w.controller.quotas, q.used.Nonneg := fun q hq r => by
    rw [(h q hq r).1]
    exact total_nonneg hs.nonneg r q.ns
  constructor
  · intro hafter
    -- a quota of the namespace after the record says what its sum is and that it is within the limits
    have hq : ∀ q ∈ w.controller.quotas, q.ns = charge.ns → ∀ r,
        (q.used.add charge.amount).value r = q.used.value r + charge.amount.value r ∧
          (q.used.add charge.amount).value r ≤ q.hard.value r := by
      intro q hq hns r
      have hmem : q.addUsage charge.amount ∈ (step w (.record charge)).controller.quotas :=
        Controller.mem_change.mpr ⟨q, hq, (if_pos hns).symm⟩
      obtain ⟨hsum, hle⟩ := hafter _ hmem r
      refine ⟨hsum.trans ?_, hle⟩
      rw [(h q hq r).1]
      exact (total_append _ r q.ns).trans (by rw [if_pos hns.symm])
    refine ⟨(Controller.canAdmitResource_iff hs.enabled).mpr fun q hmem hns r => (hq q hmem hns r).2, ?_⟩
    intro q hmem hns r
    exact (Quantity.value_add_eq_iff (hused q hmem) hc r).mp (hq q hmem hns r).1
  · rintro ⟨hadmitted, hfits⟩ q' hq' r
    obtain ⟨q, hq, rfl⟩ := Controller.mem_change.mp hq'
    by_cases hns : q.ns = charge.ns
    · rw [if_pos hns]
      have hsum := (Quantity.value_add_eq_iff (hused q hq) hc r).mpr (hfits q hq hns r)
      refine ⟨?_, (Controller.canAdmitResource_iff hs.enabled).mp hadmitted q hq hns r⟩
      refine hsum.trans ?_
      rw [(h q hq r).1]
      exact ((total_append _ r q.ns).trans (by rw [if_pos hns.symm])).symm
    · rw [if_neg hns]
      refine ⟨(h q hq r).1.trans ?_, (h q hq r).2⟩
      exact ((total_append _ r q.ns).trans (by rw [if_neg (Ne.symm hns), Int.add_zero])).symm

/-- **A release keeps the promise.** -/
theorem charged_release (hs : Sane w) (hc : charge ∈ w.recorded) (h : Charged w) :
    Charged (step w (.release charge)) := by
  intro q' hq' r
  obtain ⟨q, hq, rfl⟩ := Controller.mem_change.mp hq'
  obtain ⟨hsum, hle⟩ := h q hq r
  have hsplit := total_erase hc r q.ns
  by_cases hns : q.ns = charge.ns
  · rw [if_pos hns.symm] at hsplit
    have hrest : 0 ≤ total (w.recorded.erase charge) r q.ns :=
      total_nonneg (fun c hc => hs.nonneg c (List.mem_of_mem_erase hc)) r q.ns
    have hamount : 0 ≤ charge.amount.value r := hs.nonneg charge hc r
    have hsub : (q.used.subtract charge.amount).value r = q.used.value r - charge.amount.value r :=
      toInt_clampedSub hamount (show charge.amount.value r ≤ q.used.value r by omega)
    rw [if_pos hns]
    constructor
    · exact hsub.trans (show _ = total (w.recorded.erase charge) r q.ns by omega)
    · exact hsub.le.trans (show _ ≤ q.hard.value r by omega)
  · rw [if_neg (Ne.symm hns), Int.add_zero] at hsplit
    rw [if_neg hns]
    exact ⟨hsum.trans hsplit, hle⟩

theorem charged_step_iff (hs : Sane w) (hpaired : Paired w op) (h : Charged w) :
    Charged (step w op) ↔ Current w op := by
  cases op with
  | canAdmitResource charge => exact iff_of_true h trivial
  | record charge => exact charged_record_iff hs hpaired.1 h
  | release charge => exact iff_of_true (charged_release hs hpaired h) trivial

/-- A controller whose quotas have limits that are not negative and no usage yet. -/
structure Controller.Unused (c : Controller) : Prop where
  enabled : c.enabled = true
  unused : ∀ q ∈ c.quotas, q.used = .zero
  limits : ∀ q ∈ c.quotas, q.hard.Nonneg

/-- **Within the quotas, exactly.** Along a run of paired calls the usage of every quota is the sum of its
namespace and within the limits **iff** every record is current. -/
theorem charged_iff {c : Controller} (hc : c.Unused) {ops : List Op}
    (hpaired : AllSteps step Paired ⟨c, [], []⟩ ops) :
    AllStates step Charged ⟨c, [], []⟩ ops ↔ AllSteps step Current ⟨c, [], []⟩ ops := by
  refine allStates_iff_allSteps (I := Sane) (fun w op hs hp => hs.step hp)
    (fun w op hs hp hw => charged_step_iff hs hp hw) ⟨hc.enabled, ?_⟩ ?_ hpaired
  · exact fun charge h => absurd h List.not_mem_nil
  · intro q hq r
    rw [hc.unused q hq, Quantity.value_zero]
    exact ⟨rfl, hc.limits q hq r⟩

/-! ## An amount that overflows -/

/-- An amount of CPU. -/
def cpu (n : Int) : Quantity := ⟨fun r => if r = .cpuMillicores then BitVec.ofInt _ n else 0#r.width⟩

/-- One quota, of 1000 millicores in the default namespace. -/
def oneQuota : Controller :=
  { Controller.new 10 with quotas := [{ ResourceQuota.new "team" "default" with hard := cpu 1000 }] }

theorem oneQuota_unused : oneQuota.Unused := by
  refine ⟨rfl, ?_, ?_⟩
  · intro q hq
    rw [List.mem_singleton.mp hq]
    rfl
  · intro q hq
    rw [List.mem_singleton.mp hq]
    intro r
    cases r <;> decide

theorem cpu_nonneg {n : Int} (h : 0 ≤ (BitVec.ofInt 64 n).toInt) : (cpu n).Nonneg := by
  intro r
  cases r with
  | cpuMillicores => exact h
  | _ => exact le_refl (0 : Int)

/-- Half of the quota is used and given back. -/
def halfUsed : List Op :=
  [.canAdmitResource ⟨"default", cpu 500⟩, .record ⟨"default", cpu 500⟩, .release ⟨"default", cpu 500⟩]

theorem halfUsed_charged : AllStates step Charged ⟨oneQuota, [], []⟩ halfUsed := by
  have hpaired : AllSteps step Paired ⟨oneQuota, [], []⟩ halfUsed :=
    ⟨trivial, ⟨cpu_nonneg (by decide), by decide⟩, List.mem_cons_self, trivial⟩
  refine (charged_iff oneQuota_unused hpaired).mpr ⟨trivial, ⟨by decide, ?_⟩, trivial, trivial⟩
  intro q hq _ r
  rw [List.mem_singleton.mp hq]
  cases r <;> decide

/-- **An amount beyond every limit is admitted**: with one millicore in use, `2^63 - 1` more give a negative
sum. -/
theorem huge_amount_admitted : ¬ ∀ (c : Controller) (ops : List Op), c.Unused →
    AllSteps step Paired ⟨c, [], []⟩ ops → AllStates step Charged ⟨c, [], []⟩ ops := by
  intro h
  have hpaired : AllSteps step Paired ⟨oneQuota, [], []⟩
      [.canAdmitResource ⟨"default", cpu 1⟩, .record ⟨"default", cpu 1⟩, .canAdmitResource ⟨"default", cpu (2 ^ 63 - 1)⟩,
        .record ⟨"default", cpu (2 ^ 63 - 1)⟩] := by
    refine ⟨trivial, ⟨cpu_nonneg (by decide), by decide⟩, trivial, ⟨cpu_nonneg (by decide), by decide⟩, trivial⟩
  have hend := (h _ _ oneQuota_unused hpaired).run_mem _ List.mem_cons_self .cpuMillicores
  exact absurd hend.1 (by decide)

end Sirah.QuotaController
