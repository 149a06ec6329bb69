import Mathlib.Data.List.Basic
import Sirah.Lib.CString
import Sirah.Lib.Run

/-!
# Stateful sets

Model of `internal/statefulset/statefulset.c`: a set and the table of its ordinals, with the calls that change
it. A call names the set by its namespace and name; what is modelled is the call on the set that it finds.

* The table has a place for each ordinal below 1000. `maxOrdinal` is the highest one in use and only grows; the
  places behind it hold zeros.
* `nextOrdinalToCreate` and `nextOrdinalToDelete` return the ordinal that the source writes to `*out_ordinal`.
  `nextOrdinalToCreate_cases` and `nextOrdinalToDelete_cases` say which one that is.
-/

namespace Sirah.Stateful

open Runs

/-! ## Data -/

/-- `statefulset_pod_management_policy_t`. -/
inductive PodManagementPolicy where
  | orderedReady
  | parallel
  | rollingUpdate
  deriving DecidableEq

/-- `pod_ordinal_state_t`. -/
inductive OrdinalState where
  | pending
  | creating
  | running
  | ready
  | terminating
  | terminated
  | failed
  deriving DecidableEq

/-- `pod_ordinal_t`. -/
structure PodOrdinal where
  ordinal : Nat
  podName : CString
  state : OrdinalState
  ready : Bool
  deriving DecidableEq

/-- `{0}`. -/
def PodOrdinal.zero : PodOrdinal := ⟨0, [], .pending, false⟩

/-- `statefulset_spec_t`, with the names of the volume claim templates. -/
structure Spec where
  name : CString
  ns : CString
  replicas : Int
  serviceName : CString
  podManagementPolicy : PodManagementPolicy
  terminationGracePeriodSeconds : Int
  volumeTemplates : List CString
  deriving DecidableEq

/-- `statefulset_t`. -/
structure StatefulSet where
  spec : Spec
  podOrdinals : Nat → PodOrdinal
  maxOrdinal : Int
  readyOrdinal : Int

/-! ## Calls -/

namespace StatefulSet

/-- `statefulset_validate_spec`: the reason why it is refused. -/
def validateSpec (spec : Spec) : Option String :=
  if spec.name.length = 0 ∨ spec.name.length > 253 then some "Invalid name: must be 1-253 characters"
  else if spec.replicas < 0 ∨ spec.replicas > 1000 then some "Invalid replicas: must be 0-1000"
  else if spec.serviceName.length = 0 then some "ServiceName is required"
  else if spec.terminationGracePeriodSeconds < 0 ∨ spec.terminationGracePeriodSeconds > 3600 then
    some "Invalid termination grace period: 0-3600 seconds"
  else none

/-- `statefulset_create`. -/
def create (ns name : CString) (spec : Spec) : Except Int StatefulSet :=
  match validateSpec spec with
  | some _ => .error (-2)
  | none => .ok
    { spec := { spec with ns := ns.take 127, name := name.take 255 }
      podOrdinals := fun _ => .zero
      maxOrdinal := -1
      readyOrdinal := -1 }

/-- `statefulset_update`. -/
def update (s : StatefulSet) (spec : Spec) : StatefulSet × Int :=
  match validateSpec spec with
  | some _ => (s, -2)
  | none => ({ s with spec := { spec with ns := s.spec.ns, name := s.spec.name } }, 0)

/-- `statefulset_get_pod_name`. -/
def getPodName (name : CString) (ordinal : Nat) : CString :=
  CString.snprintf 256 (name ++ CString.ofString "-" ++ CString.ofNat ordinal)

/-- The table with the places up to the ordinal in use. -/
def expand (s : StatefulSet) (ordinal : Nat) : StatefulSet :=
  if (ordinal : Int) > s.maxOrdinal then
    { s with
      podOrdinals := fun i =>
        if s.maxOrdinal < i ∧ i ≤ ordinal then ⟨i, getPodName s.spec.name i, .pending, false⟩ else s.podOrdinals i
      maxOrdinal := ordinal }
  else s

/-- `statefulset_set_ordinal_state`. -/
def setOrdinalState (s : StatefulSet) (ordinal : Int) (state : OrdinalState) : StatefulSet × Int :=
  if ordinal < 0 ∨ ordinal ≥ 1000 then (s, -1)
  else
    let s := expand s ordinal.toNat
    let pod := { s.podOrdinals ordinal.toNat with state := state }
    ({ s with podOrdinals := Function.update s.podOrdinals ordinal.toNat pod }, 0)

/-- `statefulset_set_ordinal_ready`. -/
def setOrdinalReady (s : StatefulSet) (ordinal : Int) (ready : Bool) : StatefulSet × Int :=
  if ordinal < 0 ∨ ordinal > s.maxOrdinal then (s, -1)
  else
    let pod := { s.podOrdinals ordinal.toNat with ready := ready }
    ({ s with
      podOrdinals := Function.update s.podOrdinals ordinal.toNat pod
      readyOrdinal := if ready ∧ ordinal = s.readyOrdinal + 1 then ordinal else s.readyOrdinal }, 0)

/-- `statefulset_is_ordinal_ready`. -/
def isOrdinalReady (s : StatefulSet) (ordinal : Nat) : Bool :=
  decide (ordinal ≤ s.maxOrdinal) && (s.podOrdinals ordinal).ready

/-- The pod of the ordinal has not been created yet, or it has failed. -/
def Missing (s : StatefulSet) (i : Nat) : Prop :=
  i ≤ s.maxOrdinal → (s.podOrdinals i).state = .pending ∨ (s.podOrdinals i).state = .failed

instance (s : StatefulSet) (i : Nat) : Decidable (Missing s i) := inferInstanceAs (Decidable (_ → _))

/-- The test of `statefulset_get_next_ordinal_to_create`: under `OrderedReady` the pod before has to be ready. -/
def Creatable (s : StatefulSet) (i : Nat) : Prop :=
  Missing s i ∧
    (s.spec.podManagementPolicy = .orderedReady → i = 0 ∨ (s.podOrdinals (i - 1)).ready = true)

instance (s : StatefulSet) (i : Nat) : Decidable (Creatable s i) := inferInstanceAs (Decidable (_ ∧ _))

/-- `statefulset_get_next_ordinal_to_create`. -/
def nextOrdinalToCreate (s : StatefulSet) : Int :=
  match (List.range s.spec.replicas.toNat).find? fun i => Creatable s i with
  | some i => i
  | none => -1

/-- The loop of `statefulset_get_next_ordinal_to_delete` over the ordinals below `i`. -/
def deleteLoop (s : StatefulSet) : Nat → Int
  | 0 => -1
  | i + 1 =>
    if (i : Int) ≥ s.spec.replicas then
      if (s.podOrdinals i).state ≠ .terminated then i else deleteLoop s i
    else -1

/-- `statefulset_get_next_ordinal_to_delete`. -/
def nextOrdinalToDelete (s : StatefulSet) : Int := deleteLoop s (s.maxOrdinal + 1).toNat

/-! ## What the selectors return -/

variable {s : StatefulSet}

/-- **The next ordinal to create** is the lowest that can be created. -/
theorem nextOrdinalToCreate_cases (s : StatefulSet) :
    (nextOrdinalToCreate s = -1 ∧ ∀ i : Nat, i < s.spec.replicas → ¬ Creatable s i) ∨
    ∃ k : Nat, nextOrdinalToCreate s = k ∧ k < s.spec.replicas ∧ Creatable s k ∧
      ∀ i < k, ¬ Creatable s i := by
  unfold nextOrdinalToCreate
  cases hfind : (List.range s.spec.replicas.toNat).find? fun i => Creatable s i with
  | none =>
    refine .inl ⟨rfl, fun i hi => ?_⟩
    simpa using List.find?_eq_none.mp hfind i (List.mem_range.mpr (by omega))
  | some k =>
    refine .inr ⟨k, rfl, ?_, by simpa using List.find?_some hfind, ?_⟩
    · have hk := List.mem_range.mp (List.mem_of_find?_eq_some hfind)
      omega
    · intro i hi
      have hbefore := List.find?_range_eq_some.mp hfind
      simpa using hbefore.2.2 i hi

theorem deleteLoop_cases (s : StatefulSet) (n : Nat) :
    (deleteLoop s n = -1 ∧ ∀ j : Nat, s.spec.replicas ≤ j → j < n → (s.podOrdinals j).state = .terminated) ∨
    ∃ d : Nat, deleteLoop s n = d ∧ s.spec.replicas ≤ d ∧ d < n ∧ (s.podOrdinals d).state ≠ .terminated ∧
      ∀ j, d < j → j < n → (s.podOrdinals j).state = .terminated := by
  induction n with
  | zero => exact .inl ⟨rfl, fun j _ hj => absurd hj (Nat.not_lt_zero j)⟩
  | succ i ih =>
    unfold deleteLoop
    by_cases hrep : (i : Int) ≥ s.spec.replicas
    · rw [if_pos hrep]
      by_cases hstate : (s.podOrdinals i).state ≠ .terminated
      · rw [if_pos hstate]
        exact .inr ⟨i, rfl, hrep, Nat.lt_succ_self i, hstate, fun j hlt hle => by omega⟩
      · rw [if_neg hstate]
        rw [not_not] at hstate
        have hlast : ∀ j, j < i + 1 → j < i ∨ j = i := fun j hj => by omega
        rcases ih with ⟨heq, hall⟩ | ⟨d, heq, hd, hlt, hnot, hall⟩
        · refine .inl ⟨heq, fun j hj hlt => ?_⟩
          rcases hlast j hlt with hlt | rfl
          · exact hall j hj hlt
          · exact hstate
        · refine .inr ⟨d, heq, hd, by omega, hnot, fun j hdj hlt => ?_⟩
          rcases hlast j hlt with hlt | rfl
          · exact hall j hdj hlt
          · exact hstate
    · rw [if_neg hrep]
      exact .inl ⟨rfl, fun j hj hlt => by omega⟩

/-- **The next ordinal to delete** is the highest one in use that is not terminated, if it is not among the
replicas. -/
theorem nextOrdinalToDelete_cases (s : StatefulSet) :
    (nextOrdinalToDelete s = -1 ∧
      ∀ j : Nat, s.spec.replicas ≤ j → j ≤ s.maxOrdinal → (s.podOrdinals j).state = .terminated) ∨
    ∃ d : Nat, nextOrdinalToDelete s = d ∧ s.spec.replicas ≤ d ∧ d ≤ s.maxOrdinal ∧
      (s.podOrdinals d).state ≠ .terminated ∧
      ∀ j : Nat, d < j → j ≤ s.maxOrdinal → (s.podOrdinals j).state = .terminated := by
  rcases deleteLoop_cases s (s.maxOrdinal + 1).toNat with ⟨heq, hall⟩ | ⟨d, heq, hd, hlt, hnot, hall⟩
  · exact .inl ⟨heq, fun j hj hle => hall j hj (by omega)⟩
  · exact .inr ⟨d, heq, hd, by omega, hnot, fun j hdj hle => hall j hdj (by omega)⟩

/-! ## The places behind the last ordinal -/

/-- The places behind the last ordinal are not ready. -/
def TailUnready (s : StatefulSet) : Prop := ∀ j : Nat, s.maxOrdinal < j → (s.podOrdinals j).ready = false

theorem TailUnready.expand (h : TailUnready s) (ordinal : Nat) : TailUnready (expand s ordinal) := by
  unfold StatefulSet.expand
  split
  · intro j hj
    dsimp only at hj ⊢
    rw [if_neg (by omega)]
    exact h j (by omega)
  · exact h

theorem TailUnready.isOrdinalReady (h : TailUnready s) (j : Nat) :
    isOrdinalReady s j = (s.podOrdinals j).ready := by
  unfold StatefulSet.isOrdinalReady
  by_cases hj : (j : Int) ≤ s.maxOrdinal
  · simp [hj]
  · simp [hj, h j (by omega)]

theorem TailUnready.update (h : TailUnready s) (spec : Spec) : TailUnready (update s spec).1 := by
  unfold StatefulSet.update
  split <;> exact h

theorem TailUnready.setOrdinalState (h : TailUnready s) (ordinal : Int) (state : OrdinalState) :
    TailUnready (setOrdinalState s ordinal state).1 := by
  unfold StatefulSet.setOrdinalState
  split
  · exact h
  · intro j hj
    have htail := h.expand ordinal.toNat j hj
    dsimp only
    rw [Function.update_apply]
    split
    · rename_i heq
      exact heq ▸ htail
    · exact htail

theorem TailUnready.setOrdinalReady (h : TailUnready s) (ordinal : Int) (ready : Bool) :
    TailUnready (setOrdinalReady s ordinal ready).1 := by
  unfold StatefulSet.setOrdinalReady
  split
  · exact h
  · intro j hj
    dsimp only at hj ⊢
    rw [Function.update_of_ne (by omega)]
    exact h j hj

end StatefulSet

end Sirah.Stateful
