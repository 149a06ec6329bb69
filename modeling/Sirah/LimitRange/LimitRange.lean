import Mathlib.Data.List.Defs
import Sirah.Lib.CString
import Sirah.Lib.SplitFirst

/-!
# LimitRange

Model of `internal/limitrange/limitrange.c`: a table of at most 100 LimitRanges, each with items that bound
what a container, a pod or a claim of its namespace may ask for.

The validators look at one item: the first of their type in the first LimitRange of the namespace
(`Manager.firstItem`). The functions that return an item go on to the next LimitRange (`Manager.getItem`).

* `Complete`: a container that is accepted respects every container item of its namespace.
* **`complete_iff`**: it is so **iff** the item that is looked at refuses the container in a bound that is
  tested, or the bounds that are not tested and the items that are not looked at are respected.
* `validateContainer_sound`: a container that is refused violates an item.
* `validateContainer_defaulted`: the defaults of an item that are within its bounds change no verdict.
* `request_above_maximum_accepted`: a request above the maximum is accepted.
-/

namespace Sirah.LimitRange

/-! ## The table -/

/-- `limitrange_item_type_t`. -/
inductive ItemType where
  | container
  | pod
  | pvc
  | custom
  deriving DecidableEq

/-- `resource_limit_t`. A bound of zero is no bound. -/
structure ResourceLimit where
  minBytes : UInt64
  maxBytes : UInt64
  defaultBytes : UInt64
  defaultRequestBytes : UInt64

/-- `limitrange_item_t`. -/
structure Item where
  type : ItemType
  cpu : ResourceLimit
  memory : ResourceLimit
  storage : ResourceLimit

/-- `limitrange_spec_t`. -/
structure Spec where
  name : CString
  ns : CString
  items : List Item
  generation : UInt32

/-- `limitrange_status_t`. -/
structure Status where
  message : CString
  enforcing : Bool

/-- `limitrange_t`. -/
structure Limitrange where
  spec : Spec
  status : Status

/-- The table is an array of 100. -/
def maxLimitranges : Nat := 100

/-- `limitrange_manager_t`. -/
structure Manager where
  limitranges : List Limitrange
  bounded : limitranges.length ≤ maxLimitranges

def Manager.init : Manager := ⟨[], Nat.zero_le _⟩

/-- What `find_limitrange_index` looks for. -/
def Limitrange.hasKey (ns name : CString) (lr : Limitrange) : Bool := lr.spec.ns == ns && lr.spec.name == name

/-- `limitrange_validate_spec`, with the reason where it returns 0. -/
def validateSpec (spec : Spec) : Except CString Unit :=
  if spec.name.length = 0 ∨ spec.name.length > 253 then .error "Invalid name"
  else if spec.ns.length = 0 ∨ spec.ns.length > 253 then .error "Namespace is required"
  else if spec.items.length = 0 ∨ spec.items.length > 10 then .error "Invalid item count"
  else .ok ()

/-- The specification under the key it is stored with. -/
def Spec.stored (spec : Spec) (ns name : CString) (generation : UInt32) : Spec :=
  { spec with ns := ns.take 127, name := name.take 255, generation := generation }

/-- `limitrange_create`. -/
def Manager.create (m : Manager) (ns name : CString) (spec : Spec) : Manager × Int :=
  if h : m.limitranges.length < maxLimitranges then
    if m.limitranges.any (Limitrange.hasKey ns name) then (m, -1)
    else
      match validateSpec spec with
      | .error _ => (m, -2)
      | .ok () =>
        (⟨m.limitranges ++ [⟨spec.stored ns name 1, ⟨"LimitRange enforcing", true⟩⟩],
          (List.length_append).le.trans h⟩, 0)
  else (m, -1)

/-- `limitrange_get`. -/
def Manager.get (m : Manager) (ns name : CString) : Option Limitrange :=
  m.limitranges.find? (Limitrange.hasKey ns name)

/-- `limitrange_is_enforcing`. -/
def Manager.isEnforcing (m : Manager) (ns name : CString) : Bool :=
  ((m.get ns name).map fun lr => lr.status.enforcing).getD false

theorem length_replaced {l pre post : List Limitrange} {x y : Limitrange} {p : Limitrange → Bool}
    (h : l.splitFirst p = some (pre, x, post)) : (pre ++ y :: post).length = l.length := by
  obtain ⟨rfl, -, -⟩ := List.splitFirst_eq_some h
  simp only [List.length_append, List.length_cons]

/-- `limitrange_update`. The generation that is counted up is the one of the new specification. -/
def Manager.update (m : Manager) (ns name : CString) (spec : Spec) : Manager × Int :=
  match h : m.limitranges.splitFirst (Limitrange.hasKey ns name) with
  | none => (m, -1)
  | some (pre, lr, post) =>
    match validateSpec spec with
    | .error _ => (m, -2)
    | .ok () =>
      (⟨pre ++ { lr with spec := spec.stored ns name (spec.generation + 1) } :: post,
        (length_replaced h).le.trans m.bounded⟩, 0)

/-- `limitrange_delete`. -/
def Manager.delete (m : Manager) (ns name : CString) : Manager × Int :=
  if m.limitranges.any (Limitrange.hasKey ns name) then
    (⟨m.limitranges.eraseP (Limitrange.hasKey ns name), (List.length_eraseP_le).trans m.bounded⟩, 0)
  else (m, -1)

/-- `limitrange_list`. -/
def Manager.list (m : Manager) (ns : CString) : List Limitrange :=
  m.limitranges.filter fun lr => lr.spec.ns == ns

/-! ## Items -/

/-- The first item of a type in the first LimitRange of the namespace, as the validators look for it: the
search ends at this LimitRange. -/
def Manager.firstItem (m : Manager) (type : ItemType) (ns : CString) : Option Item :=
  (m.list ns).head?.bind fun lr => lr.spec.items.find? fun item => item.type == type

/-- The first item of a type in the namespace. -/
def Manager.getItem (m : Manager) (type : ItemType) (ns : CString) : Option Item :=
  (m.list ns).findSome? fun lr => lr.spec.items.find? fun item => item.type == type

/-- `limitrange_get_container_item`. -/
def Manager.getContainerItem (m : Manager) := m.getItem .container

/-- `limitrange_get_pod_item`. -/
def Manager.getPodItem (m : Manager) := m.getItem .pod

/-- `limitrange_get_pvc_item`. -/
def Manager.getPvcItem (m : Manager) := m.getItem .pvc

/-- The items of a type in the namespace, in the order of the table. -/
def Manager.items (m : Manager) (type : ItemType) (ns : CString) : List Item :=
  (m.list ns).flatMap fun lr => lr.spec.items.filter fun item => item.type == type

/-- The items that the validators do not look at. -/
def Manager.skipped (m : Manager) (type : ItemType) (ns : CString) : List Item :=
  match m.firstItem type ns with
  | some _ => (m.items type ns).tail
  | none => m.items type ns

variable {m : Manager} {type : ItemType} {ns : CString} {item : Item}

theorem Manager.mem_items :
    item ∈ m.items type ns ↔
      ∃ lr ∈ m.limitranges, lr.spec.ns = ns ∧ item ∈ lr.spec.items ∧ item.type = type := by
  simp only [Manager.items, Manager.list, List.mem_flatMap, List.mem_filter, beq_iff_eq, and_assoc]

/-- **The functions that return an item** find the first one there is. -/
theorem Manager.getItem_eq_head : m.getItem type ns = (m.items type ns).head? := by
  unfold Manager.getItem Manager.items
  rw [List.head?_flatMap]
  simp only [List.head?_filter]

/-- **The validators** find the same, or none. -/
theorem Manager.items_eq : m.items type ns = (m.firstItem type ns).toList ++ m.skipped type ns := by
  unfold Manager.skipped
  cases h : m.firstItem type ns with
  | none => rfl
  | some item =>
    unfold Manager.firstItem at h
    obtain ⟨lr, hlr, hitem⟩ := Option.bind_eq_some_iff.mp h
    have hhead : (m.items type ns).head? = some item := by
      rw [← Manager.getItem_eq_head]
      unfold Manager.getItem
      obtain ⟨rest, hlist⟩ := List.head?_eq_some_iff.mp hlr
      rw [hlist, List.findSome?_cons, hitem]
    obtain ⟨rest, hitems⟩ := List.head?_eq_some_iff.mp hhead
    rw [hitems]
    rfl

/-! ## Validation -/

/-- Is an amount that is specified below a minimum that is set? -/
def tooLow (amount minimum : UInt64) : Bool := amount > 0 && minimum > 0 && amount < minimum

/-- Is an amount that is specified above a maximum that is set? -/
def tooHigh (amount maximum : UInt64) : Bool := amount > 0 && maximum > 0 && amount > maximum

/-- What a container asks for. Zero is unspecified. -/
structure Container where
  cpuRequest : UInt64
  cpuLimit : UInt64
  memoryRequest : UInt64
  memoryLimit : UInt64

inductive Resource where
  | cpu
  | memory
  deriving DecidableEq

/-- What `out_reason` says, with the two amounts it is printed with. -/
inductive Reason where
  | requestBelowMinimum (r : Resource) (request minimum : UInt64)
  | limitAboveMaximum (r : Resource) (limit maximum : UInt64)
  deriving DecidableEq

/-- The tests of a container against one item. -/
def Item.check (item : Item) (c : Container) : Except Reason Unit :=
  if tooLow c.cpuRequest item.cpu.minBytes then
    .error (.requestBelowMinimum .cpu c.cpuRequest item.cpu.minBytes)
  else if tooHigh c.cpuLimit item.cpu.maxBytes then
    .error (.limitAboveMaximum .cpu c.cpuLimit item.cpu.maxBytes)
  else if tooLow c.memoryRequest item.memory.minBytes then
    .error (.requestBelowMinimum .memory c.memoryRequest item.memory.minBytes)
  else if tooHigh c.memoryLimit item.memory.maxBytes then
    .error (.limitAboveMaximum .memory c.memoryLimit item.memory.maxBytes)
  else .ok ()

/-- `limitrange_validate_container`: `ok` where it returns 1. -/
def Manager.validateContainer (m : Manager) (ns : CString) (c : Container) : Except Reason Unit :=
  match m.firstItem .container ns with
  | none => .ok ()
  | some item => item.check c

/-- `limitrange_apply_container_defaults`: the CPU and the memory that are requested. -/
def Manager.applyContainerDefaults (m : Manager) (ns : CString) (cpu memory : UInt64) :
    Option (UInt64 × UInt64) :=
  (m.firstItem .container ns).map fun item =>
    (if cpu > 0 then cpu else item.cpu.defaultRequestBytes,
      if memory > 0 then memory else item.memory.defaultRequestBytes)

/-- `limitrange_apply_container_limit_defaults`. -/
def Manager.applyContainerLimitDefaults (m : Manager) (ns : CString) (cpu memory : UInt64) :
    Option (UInt64 × UInt64) :=
  (m.firstItem .container ns).map fun item =>
    (if cpu > 0 then cpu else item.cpu.defaultBytes, if memory > 0 then memory else item.memory.defaultBytes)

/-- `limitrange_validate_pod`. It reads the requests only. -/
def Manager.validatePod (m : Manager) (ns : CString) (totalCpuRequest totalMemoryRequest : UInt64) :
    Except CString Unit :=
  match m.firstItem .pod ns with
  | none => .ok ()
  | some item =>
    if tooHigh totalCpuRequest item.cpu.maxBytes then .error "Pod total CPU exceeds limit"
    else if tooHigh totalMemoryRequest item.memory.maxBytes then .error "Pod total memory exceeds limit"
    else .ok ()

/-- `limitrange_apply_pod_limit_defaults`. -/
def Manager.applyPodLimitDefaults (m : Manager) (ns : CString) (cpu : UInt64) : Option UInt64 :=
  (m.firstItem .pod ns).map fun item => if cpu > 0 then cpu else item.cpu.defaultBytes

/-- `limitrange_validate_storage`. -/
def Manager.validateStorage (m : Manager) (ns : CString) (storage : UInt64) : Except CString Unit :=
  match m.firstItem .pvc ns with
  | none => .ok ()
  | some item =>
    if tooHigh storage item.storage.maxBytes then .error "Storage size exceeds limit" else .ok ()

/-! ## Completeness -/

/-- **An amount is within the bounds** that are set, if it is specified. -/
def ResourceLimit.Within (limit : ResourceLimit) (amount : UInt64) : Prop :=
  amount ≠ 0 → (limit.minBytes ≠ 0 → limit.minBytes ≤ amount) ∧ (limit.maxBytes ≠ 0 → amount ≤ limit.maxBytes)

/-- **The container respects the item**: both requests and both limits are within its bounds. -/
structure Item.Respected (item : Item) (c : Container) : Prop where
  cpuRequest : item.cpu.Within c.cpuRequest
  cpuLimit : item.cpu.Within c.cpuLimit
  memoryRequest : item.memory.Within c.memoryRequest
  memoryLimit : item.memory.Within c.memoryLimit

/-- **Enforcement is complete**: a container that is accepted respects every container item of every
LimitRange of the namespace. -/
def Complete (m : Manager) (ns : CString) (c : Container) : Prop :=
  m.validateContainer ns c = .ok () →
    ∀ lr ∈ m.limitranges, lr.spec.ns = ns → ∀ item ∈ lr.spec.items, item.type = .container → item.Respected c

/-- A bound that is tested is violated: a request is below the minimum, or a limit above the maximum. -/
def Item.Refuses (item : Item) (c : Container) : Prop :=
  tooLow c.cpuRequest item.cpu.minBytes ∨ tooHigh c.cpuLimit item.cpu.maxBytes ∨
    tooLow c.memoryRequest item.memory.minBytes ∨ tooHigh c.memoryLimit item.memory.maxBytes

/-- The bounds that are not tested are respected: the maximum for a request, the minimum for a limit. -/
structure Item.UntestedWithin (item : Item) (c : Container) : Prop where
  cpuRequest : tooHigh c.cpuRequest item.cpu.maxBytes = false
  cpuLimit : tooLow c.cpuLimit item.cpu.minBytes = false
  memoryRequest : tooHigh c.memoryRequest item.memory.maxBytes = false
  memoryLimit : tooLow c.memoryLimit item.memory.minBytes = false

variable {c : Container}

theorem within_iff {limit : ResourceLimit} {amount : UInt64} :
    limit.Within amount ↔ tooLow amount limit.minBytes = false ∧ tooHigh amount limit.maxBytes = false := by
  unfold ResourceLimit.Within tooLow tooHigh
  simp only [Bool.and_eq_false_iff, decide_eq_false_iff_not, gt_iff_lt, UInt64.not_lt, UInt64.le_zero_iff]
  tauto

/-- **Respected is tested and untested.** -/
theorem Item.respected_iff : item.Respected c ↔ ¬ item.Refuses c ∧ item.UntestedWithin c := by
  unfold Item.Refuses
  simp only [not_or, Bool.not_eq_true]
  constructor
  · rintro ⟨hcr, hcl, hmr, hml⟩
    rw [within_iff] at hcr hcl hmr hml
    exact ⟨⟨hcr.1, hcl.2, hmr.1, hml.2⟩, ⟨hcr.2, hcl.1, hmr.2, hml.1⟩⟩
  · rintro ⟨⟨hcr, hcl, hmr, hml⟩, hcr', hcl', hmr', hml'⟩
    exact ⟨within_iff.mpr ⟨hcr, hcr'⟩, within_iff.mpr ⟨hcl', hcl⟩, within_iff.mpr ⟨hmr, hmr'⟩,
      within_iff.mpr ⟨hml', hml⟩⟩

theorem Item.check_eq_ok_iff : item.check c = .ok () ↔ ¬ item.Refuses c := by
  unfold Item.check Item.Refuses
  split_ifs with hcr hcl hmr hml <;> simp [*]

/-- **A container that is refused violates an item** of its namespace. -/
theorem validateContainer_sound {reason : Reason} (h : m.validateContainer ns c = .error reason) :
    ∃ item ∈ m.items .container ns, ¬ item.Respected c := by
  unfold Manager.validateContainer at h
  cases hfirst : m.firstItem .container ns with
  | none =>
    rw [hfirst] at h
    cases h
  | some item =>
    rw [hfirst] at h
    have hmem : item ∈ m.items .container ns := by
      rw [Manager.items_eq, hfirst]
      exact List.mem_cons_self
    refine ⟨item, hmem, fun hrespected => ?_⟩
    have hok := Item.check_eq_ok_iff.mpr (Item.respected_iff.mp hrespected).1
    cases hok.symm.trans h

/-- **Enforcement is complete, exactly** where the item that is looked at refuses the container in a bound
that is tested, or the container respects its other bounds and the items that are not looked at. -/
theorem complete_iff :
    Complete m ns c ↔
      (∃ item, m.firstItem .container ns = some item ∧ item.Refuses c) ∨
        (∀ item, m.firstItem .container ns = some item → item.UntestedWithin c) ∧
          ∀ item ∈ m.skipped .container ns, item.Respected c := by
  have hall : (∀ lr ∈ m.limitranges, lr.spec.ns = ns → ∀ item ∈ lr.spec.items, item.type = .container →
      item.Respected c) ↔ ∀ item ∈ m.items .container ns, item.Respected c := by
    simp only [Manager.mem_items]
    exact ⟨fun h item ⟨lr, hlr, hns, hitem, htype⟩ => h lr hlr hns item hitem htype,
      fun h lr hlr hns item hitem htype => h item ⟨lr, hlr, hns, hitem, htype⟩⟩
  unfold Complete
  rw [hall, Manager.items_eq]
  unfold Manager.validateContainer
  cases hfirst : m.firstItem .container ns with
  | none => simp
  | some item =>
    have hrespected : item.Respected c ↔ ¬ item.Refuses c ∧ item.UntestedWithin c := Item.respected_iff
    simp only [Item.check_eq_ok_iff, Option.toList_some, List.singleton_append, List.forall_mem_cons,
      hrespected, Option.some.injEq, exists_eq_left', forall_eq']
    tauto

/-! ## Defaults -/

/-- The defaults of an item pass the tests they are put to. -/
structure Item.DefaultsPass (item : Item) : Prop where
  cpuRequest : tooLow item.cpu.defaultRequestBytes item.cpu.minBytes = false
  cpuLimit : tooHigh item.cpu.defaultBytes item.cpu.maxBytes = false
  memoryRequest : tooLow item.memory.defaultRequestBytes item.memory.minBytes = false
  memoryLimit : tooHigh item.memory.defaultBytes item.memory.maxBytes = false

theorem tooLow_defaulted {amount default minimum : UInt64} (h : tooLow default minimum = false) :
    tooLow (if amount > 0 then amount else default) minimum = tooLow amount minimum := by
  split
  · rfl
  · rename_i hzero
    rw [h, tooLow, decide_eq_false hzero]
    rfl

theorem tooHigh_defaulted {amount default maximum : UInt64} (h : tooHigh default maximum = false) :
    tooHigh (if amount > 0 then amount else default) maximum = tooHigh amount maximum := by
  split
  · rfl
  · rename_i hzero
    rw [h, tooHigh, decide_eq_false hzero]
    rfl

/-- **Filling in the defaults changes no verdict** if the defaults pass the tests. -/
theorem validateContainer_defaulted (hfirst : m.firstItem .container ns = some item)
    (hdefaults : item.DefaultsPass) {cpuRequest cpuLimit memoryRequest memoryLimit : UInt64}
    (hrequests : m.applyContainerDefaults ns c.cpuRequest c.memoryRequest = some (cpuRequest, memoryRequest))
    (hlimits : m.applyContainerLimitDefaults ns c.cpuLimit c.memoryLimit = some (cpuLimit, memoryLimit)) :
    m.validateContainer ns ⟨cpuRequest, cpuLimit, memoryRequest, memoryLimit⟩ = .ok () ↔
      m.validateContainer ns c = .ok () := by
  unfold Manager.applyContainerDefaults at hrequests
  unfold Manager.applyContainerLimitDefaults at hlimits
  rw [hfirst] at hrequests hlimits
  cases hrequests
  cases hlimits
  unfold Manager.validateContainer
  rw [hfirst]
  simp only [Item.check_eq_ok_iff, Item.Refuses, tooLow_defaulted hdefaults.cpuRequest,
    tooHigh_defaulted hdefaults.cpuLimit, tooLow_defaulted hdefaults.memoryRequest,
    tooHigh_defaulted hdefaults.memoryLimit]

/-! ## A request above the maximum -/

/-- A LimitRange with one item, under which a container has at most 1000 millicores. -/
def oneCore : Spec where
  name := "team"
  ns := "default"
  items := [⟨.container, ⟨0, 1000, 0, 0⟩, ⟨0, 0, 0, 0⟩, ⟨0, 0, 0, 0⟩⟩]
  generation := 0

/-- **A request above the maximum is accepted**: 2000 millicores and no limit. -/
theorem request_above_maximum_accepted :
    ¬ ∀ (m : Manager) (ns : CString) (c : Container), Complete m ns c := by
  intro h
  have hall := h (Manager.init.create "default" "team" oneCore).1 "default" ⟨2000, 0, 0, 0⟩ rfl
  have hrespected := hall _ List.mem_cons_self rfl _ List.mem_cons_self rfl
  exact absurd ((hrespected.cpuRequest (by decide)).2 (by decide)) (by decide)

end Sirah.LimitRange
