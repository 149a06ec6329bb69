import Mathlib.Logic.Function.Basic
import Sirah.Quota.Controller

/-!
# Defaults of limit ranges

Model of the limit ranges of `pkg/types/quota.c` and `internal/controller/quota_controller.c`. A container's
request is completed from the first range of its namespace: a field that is zero gets the default of the
range, and what comes out is checked against this range. The validator checks all ranges of the namespace.

* `LimitRange.defaulted`: the numbers of a request once the defaults are in.
* `AllOrNothing`: what is expected of the call. A result of 0 leaves a request that the validator accepts, a
  result of -1 the request as it was.
* **`allOrNothing_iff`**: a call is all or nothing **iff** the first range accepts the completed request and
  the others do too, or it refuses and had no default to give.
* `refused_request_changed`: a request that is refused and has a default in it.
-/

namespace Sirah.QuotaController

/-! ## Limit ranges -/

/-- `k8s_limit_range_t`: its key and the container fields of its spec. -/
structure LimitRange where
  name : CString
  ns : CString
  containerMin : Quantity
  containerMax : Quantity
  containerDefaultRequest : Quantity

/-- The two comparisons of a field. -/
def LimitRange.inRange (lr : LimitRange) (resources : Quantity) (r : Resource) : Bool :=
  !(resources.field r).slt (lr.containerMin.field r) && !(lr.containerMax.field r).slt (resources.field r)

/-- `k8s_limit_range_validate_container`. -/
def LimitRange.validateContainer (lr : LimitRange) (resources : Quantity) : Bool :=
  lr.inRange resources .cpuMillicores && lr.inRange resources .memoryBytes

/-- A field that is zero gets its default. -/
def Quantity.fill (resources defaults : Quantity) (r : Resource) : Quantity :=
  if resources.field r = 0#r.width then ⟨Function.update resources.field r (defaults.field r)⟩ else resources

/-- The request after the two assignments of `k8s_limit_range_apply_defaults`. -/
def LimitRange.complete (lr : LimitRange) (resources : Quantity) : Quantity :=
  (resources.fill lr.containerDefaultRequest .cpuMillicores).fill lr.containerDefaultRequest .memoryBytes

/-- `k8s_limit_range_apply_defaults`: the request it leaves and its result. -/
def LimitRange.applyDefaults (lr : LimitRange) (resources : Quantity) : Quantity × Int :=
  (lr.complete resources, if lr.validateContainer (lr.complete resources) then 0 else -1)

/-- `k8s_quota_controller_t` with its limit ranges. -/
structure RangeController extends Controller where
  maxLimitRanges : Nat
  limitRanges : List LimitRange

/-- `k8s_quota_controller_list_limit_ranges`. -/
def RangeController.listLimitRanges (c : RangeController) (ns : CString) : List LimitRange :=
  c.limitRanges.filter fun lr => lr.ns == ns

/-- `k8s_quota_controller_apply_limit_range_defaults`: by the first range of the namespace. -/
def RangeController.applyLimitRangeDefaults (c : RangeController) (ns : CString) (resources : Quantity) :
    Quantity × Int :=
  match c.listLimitRanges ns with
  | [] => (resources, 0)
  | first :: _ => first.applyDefaults resources

/-- `k8s_quota_controller_validate_container_limits`: by all ranges of the namespace. -/
def RangeController.validateContainerLimits (c : RangeController) (ns : CString) (resources : Quantity) : Bool :=
  (c.listLimitRanges ns).all fun lr => lr.validateContainer resources

/-! ## What they compute -/

/-- The fields that a limit range is about. -/
def Resource.Ranged (r : Resource) : Prop := r = .cpuMillicores ∨ r = .memoryBytes

/-- A field of a request with the default in the place of a zero. -/
def LimitRange.defaulted (lr : LimitRange) (resources : Quantity) (r : Resource) : Int :=
  if resources.value r = 0 then lr.containerDefaultRequest.value r else resources.value r

/-- The numbers lie between the minimum and the maximum. -/
def LimitRange.Within (lr : LimitRange) (v : Resource → Int) : Prop :=
  ∀ r : Resource, r.Ranged → lr.containerMin.value r ≤ v r ∧ v r ≤ lr.containerMax.value r

variable {lr : LimitRange} {resources defaults : Quantity} {r s : Resource}

theorem LimitRange.inRange_iff : lr.inRange resources r = true ↔
    lr.containerMin.value r ≤ resources.value r ∧ resources.value r ≤ lr.containerMax.value r := by
  simp only [LimitRange.inRange, Bool.and_eq_true, Bool.not_eq_true', ← Bool.not_eq_true,
    BitVec.slt_iff_toInt_lt, Int.not_lt, Quantity.value]

theorem LimitRange.validateContainer_iff : lr.validateContainer resources = true ↔ lr.Within resources.value := by
  rw [LimitRange.validateContainer, Bool.and_eq_true, inRange_iff, inRange_iff]
  refine ⟨fun ⟨hcpu, hmem⟩ r hr => ?_, fun h => ⟨h _ (.inl rfl), h _ (.inr rfl)⟩⟩
  rcases hr with rfl | rfl
  · exact hcpu
  · exact hmem

theorem Quantity.value_eq_zero : resources.value r = 0 ↔ resources.field r = 0#r.width := by
  unfold Quantity.value
  rw [← BitVec.toInt_inj, BitVec.toInt_zero]

theorem Quantity.fill_field_self :
    (resources.fill defaults r).field r =
      if resources.field r = 0#r.width then defaults.field r else resources.field r := by
  unfold Quantity.fill
  split
  · exact Function.update_self r (defaults.field r) resources.field
  · rfl

theorem Quantity.fill_field_ne (h : s ≠ r) : (resources.fill defaults r).field s = resources.field s := by
  unfold Quantity.fill
  split
  · exact Function.update_of_ne h (defaults.field r) resources.field
  · rfl

/-- Filling changes nothing exactly if there is nothing to fill in. -/
theorem Quantity.fill_eq_self_iff :
    resources.fill defaults r = resources ↔ (resources.field r = 0#r.width → defaults.field r = 0#r.width) := by
  constructor
  · intro h hzero
    have hfield := congrArg (fun q => q.field r) h
    simp only [fill_field_self, if_pos hzero] at hfield
    exact hfield.trans hzero
  · intro h
    unfold Quantity.fill
    split
    · next hzero =>
      rw [h hzero, ← hzero, Function.update_eq_self]
    · rfl

theorem LimitRange.complete_field (hr : r.Ranged) :
    (lr.complete resources).field r =
      if resources.field r = 0#r.width then lr.containerDefaultRequest.field r else resources.field r := by
  unfold LimitRange.complete
  rcases hr with rfl | rfl
  · rw [Quantity.fill_field_ne (by decide), Quantity.fill_field_self]
  · rw [Quantity.fill_field_self, Quantity.fill_field_ne (by decide)]

/-- **The completed request has the numbers of the defaults in the place of zeros.** -/
theorem LimitRange.complete_value (hr : r.Ranged) : (lr.complete resources).value r = lr.defaulted resources r := by
  unfold LimitRange.defaulted
  rw [Quantity.value, complete_field hr]
  by_cases hzero : resources.field r = 0#r.width
  · rw [if_pos hzero, if_pos (Quantity.value_eq_zero.mpr hzero)]
    rfl
  · rw [if_neg hzero, if_neg (mt Quantity.value_eq_zero.mp hzero)]
    rfl

/-- A limit range accepts the completed request, whichever range completed it. -/
theorem LimitRange.validateContainer_complete_iff {first : LimitRange} :
    lr.validateContainer (first.complete resources) = true ↔ lr.Within (first.defaulted resources) := by
  rw [validateContainer_iff]
  exact forall₂_congr fun r hr => by rw [complete_value hr]

/-- **A request stays as it was exactly if no field that is zero has a default.** -/
theorem LimitRange.complete_eq_self_iff : lr.complete resources = resources ↔
    ∀ r : Resource, r.Ranged → resources.value r = 0 → lr.containerDefaultRequest.value r = 0 := by
  simp only [Quantity.value_eq_zero]
  constructor
  · intro h r hr hzero
    have hfield : (lr.complete resources).field r = _ := complete_field hr
    rw [h, if_pos hzero] at hfield
    exact hfield.symm.trans hzero
  · intro h
    have hcpu := Quantity.fill_eq_self_iff.mpr (h .cpuMillicores (.inl rfl))
    unfold LimitRange.complete
    rw [hcpu]
    exact Quantity.fill_eq_self_iff.mpr (h .memoryBytes (.inr rfl))

/-! ## All or nothing -/

/-- **What is expected of a call**: 0 leaves a request that the validator accepts, -1 the request as it was. -/
def AllOrNothing (c : RangeController) (ns : CString) (resources : Quantity) : Prop :=
  ((c.applyLimitRangeDefaults ns resources).2 = 0 →
    c.validateContainerLimits ns (c.applyLimitRangeDefaults ns resources).1 = true) ∧
  ((c.applyLimitRangeDefaults ns resources).2 = -1 → (c.applyLimitRangeDefaults ns resources).1 = resources)

/-- The first range accepts the request with its defaults and the others agree, or it refuses it and no field
that is zero has a default. -/
def Agreeing (c : RangeController) (ns : CString) (resources : Quantity) : Prop :=
  ∀ first others, c.listLimitRanges ns = first :: others →
    (first.Within (first.defaulted resources) → ∀ lr ∈ others, lr.Within (first.defaulted resources)) ∧
    (¬ first.Within (first.defaulted resources) →
      ∀ r : Resource, r.Ranged → resources.value r = 0 → first.containerDefaultRequest.value r = 0)

/-- **All or nothing, exactly**: for every controller and every request. -/
theorem allOrNothing_iff (c : RangeController) (ns : CString) (resources : Quantity) :
    AllOrNothing c ns resources ↔ Agreeing c ns resources := by
  unfold AllOrNothing Agreeing RangeController.applyLimitRangeDefaults RangeController.validateContainerLimits
  cases hranges : c.listLimitRanges ns with
  | nil => simp
  | cons first others =>
    simp only [LimitRange.applyDefaults, List.all_cons, Bool.and_eq_true, List.all_eq_true, List.cons.injEq,
      LimitRange.validateContainer_complete_iff]
    by_cases hfirst : first.Within (first.defaulted resources)
    · -- accepted: the first range is in the way of nothing, the others decide
      rw [if_pos (LimitRange.validateContainer_complete_iff.mpr hfirst)]
      constructor
      · rintro ⟨hvalid, -⟩ _ _ ⟨rfl, rfl⟩
        exact ⟨fun _ => (hvalid rfl).2, fun hno => absurd hfirst hno⟩
      · intro h
        exact ⟨fun _ => ⟨hfirst, (h first others ⟨rfl, rfl⟩).1 hfirst⟩, fun hno => absurd hno (by decide)⟩
    · -- refused: what was written stays
      rw [if_neg (mt LimitRange.validateContainer_complete_iff.mp hfirst)]
      constructor
      · rintro ⟨-, hsame⟩ _ _ ⟨rfl, rfl⟩
        exact ⟨fun hyes => absurd hyes hfirst, fun _ => LimitRange.complete_eq_self_iff.mp (hsame rfl)⟩
      · intro h
        refine ⟨fun hno => absurd hno (by decide), fun _ => ?_⟩
        exact LimitRange.complete_eq_self_iff.mpr ((h first others ⟨rfl, rfl⟩).2 hfirst)

/-- With one range in the namespace, a request that is accepted passes the validator. -/
theorem accepted_of_single {c : RangeController} {ns : CString} {first : LimitRange}
    (h : c.listLimitRanges ns = [first]) (hok : (c.applyLimitRangeDefaults ns resources).2 = 0) :
    c.validateContainerLimits ns (c.applyLimitRangeDefaults ns resources).1 = true := by
  unfold RangeController.applyLimitRangeDefaults RangeController.validateContainerLimits at *
  simp only [h, LimitRange.applyDefaults, List.all_cons, List.all_nil, Bool.and_true] at hok ⊢
  by_contra hno
  rw [if_neg hno] at hok
  exact absurd hok (by decide)

/-! ## A range whose default is below its minimum -/

/-- At least 200 millicores, and 100 for a container that does not say. -/
def lowDefault : LimitRange :=
  { name := "small", ns := "default", containerMin := cpu 200, containerMax := cpu 4000,
    containerDefaultRequest := cpu 100 }

/-- **A request that is refused is not what it was**: the default is in it. -/
theorem refused_request_changed : ¬ ∀ (c : RangeController) (ns : CString) (resources : Quantity),
    AllOrNothing c ns resources := by
  intro h
  have hsame := (h ⟨Controller.new 10, 10, [lowDefault]⟩ "default" .zero).2 (by decide)
  exact absurd (congrArg (fun q => q.value .cpuMillicores) hsame) (by decide)

end Sirah.QuotaController
