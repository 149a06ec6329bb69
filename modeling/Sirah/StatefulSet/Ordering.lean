import Sirah.StatefulSet.StatefulSet

/-!
# The order of a stateful set's pods

Under the policy `OrderedReady` a pod is created when all pods before it are ready, and deleted when all pods
behind it are gone. `statefulset_get_next_ordinal_to_create` asks for the pod right before it only.

* `Ordered`: what the two selectors return respects the order.
* **`ordered_iff`**: it does in every state of a run **iff** in none of them a pod above the first one that is
  not ready can be created (`NoGap`).
* `created_over_gap`: a pod is created while the first one is not ready.
-/

namespace Sirah.Stateful

open Runs

namespace StatefulSet

inductive Op where
  | update (spec : Spec)
  | setOrdinalState (ordinal : Int) (state : OrdinalState)
  | setOrdinalReady (ordinal : Int) (ready : Bool)

def step (s : StatefulSet) : Op → StatefulSet
  | .update spec => (s.update spec).1
  | .setOrdinalState ordinal state => (s.setOrdinalState ordinal state).1
  | .setOrdinalReady ordinal ready => (s.setOrdinalReady ordinal ready).1

/-- **The order is respected.** -/
structure Ordered (s : StatefulSet) : Prop where
  /-- The pod to create is one of the replicas, does not exist or has failed, and all before it are ready. -/
  create : s.spec.podManagementPolicy = .orderedReady → ∀ k : Nat, s.nextOrdinalToCreate = k →
    k < s.spec.replicas ∧ s.Missing k ∧ ∀ j < k, s.isOrdinalReady j = true
  /-- The pod to delete is none of the replicas, and all behind it are terminated. -/
  delete : ∀ d : Nat, s.nextOrdinalToDelete = d →
    s.spec.replicas ≤ d ∧ ∀ j : Nat, d < j → j ≤ s.maxOrdinal → (s.podOrdinals j).state = .terminated

/-- **No gap**: if `j` is the first ordinal that is not ready, and neither it nor one before it waits for its
creation, then no ordinal above it that does has a ready one right before it. -/
def NoGap (s : StatefulSet) : Prop :=
  s.spec.podManagementPolicy = .orderedReady → ∀ j i : Nat, j < i → i < s.spec.replicas →
    (∀ l < j, s.isOrdinalReady l = true) → s.isOrdinalReady j = false → (∀ l ≤ j, ¬ s.Missing l) →
    s.Missing i → s.isOrdinalReady (i - 1) = false

variable {s : StatefulSet}

theorem delete_ordered (s : StatefulSet) (d : Nat) (h : s.nextOrdinalToDelete = d) :
    s.spec.replicas ≤ d ∧ ∀ j : Nat, d < j → j ≤ s.maxOrdinal → (s.podOrdinals j).state = .terminated := by
  rcases s.nextOrdinalToDelete_cases with ⟨heq, -⟩ | ⟨d', heq, hd, -, -, hall⟩
  · omega
  · obtain rfl : d' = d := by omega
    exact ⟨hd, hall⟩

/-- **Respecting the order** in a state. -/
theorem ordered_iff_noGap (htail : s.TailUnready) : s.Ordered ↔ s.NoGap := by
  constructor
  · intro h hpolicy j i hji hi hbefore hunready hexist hmissing
    by_contra hready
    rw [Bool.not_eq_false, htail.isOrdinalReady] at hready
    have hcreatable : s.Creatable i := ⟨hmissing, fun _ => .inr hready⟩
    rcases s.nextOrdinalToCreate_cases with ⟨-, hnone⟩ | ⟨k, heq, -, hk, hlowest⟩
    · exact hnone i hi hcreatable
    · -- the ordinal that is returned is above `j`, although `j` is not ready
      have hjk : j < k := Nat.lt_of_not_le fun hkj => hexist k hkj hk.1
      have hj := (h.create hpolicy k heq).2.2 j hjk
      exact absurd (hunready.symm.trans hj) Bool.false_ne_true
  · intro h
    refine ⟨fun hpolicy k hnext => ?_, fun d => s.delete_ordered d⟩
    rcases s.nextOrdinalToCreate_cases with ⟨heq, -⟩ | ⟨k', heq, hrep, hk, hlowest⟩
    · omega
    · obtain rfl : k' = k := by omega
      refine ⟨hrep, hk.1, fun j => ?_⟩
      -- induction on `j`: if it is the first that is not ready, there is a gap
      induction j using Nat.strong_induction_on with
      | _ j ih =>
        intro hj
        by_contra hunready
        rw [Bool.not_eq_true] at hunready
        have hbefore : ∀ l < j, s.isOrdinalReady l = true := fun l hl => ih l hl (hl.trans hj)
        have hexist : ∀ l ≤ j, ¬ s.Missing l := by
          intro l hl hmissing
          refine hlowest l (by omega) ⟨hmissing, fun _ => ?_⟩
          rcases Nat.eq_zero_or_pos l with hzero | hpos
          · exact .inl hzero
          · exact .inr (htail.isOrdinalReady (l - 1) ▸ hbefore (l - 1) (by omega))
        have hgap := h hpolicy j k' hj hrep hbefore hunready hexist hk.1
        rw [htail.isOrdinalReady] at hgap
        rcases hk.2 hpolicy with hzero | hready
        · omega
        · exact absurd (hgap.symm.trans hready) Bool.false_ne_true

theorem tailUnready_step (op : Op) (h : s.TailUnready) : (s.step op).TailUnready := by
  cases op with
  | update spec => exact h.update spec
  | setOrdinalState ordinal state => exact h.setOrdinalState ordinal state
  | setOrdinalReady ordinal ready => exact h.setOrdinalReady ordinal ready

theorem tailUnready_create {ns name : CString} {spec : Spec} (h : create ns name spec = .ok s) : s.TailUnready := by
  unfold create at h
  split at h
  · cases h
  · cases h
    exact fun _ _ => rfl

/-- **Pods start in order, exactly** along the runs in whose states there is no gap. -/
theorem ordered_iff {ns name : CString} {spec : Spec} (h : create ns name spec = .ok s) {ops : List Op} :
    AllStates step Ordered s ops ↔ AllStates step NoGap s ops :=
  allStates_congr (fun _ htail => ordered_iff_noGap htail)
    (allStates_of_step (fun _ op htail => tailUnready_step op htail) (tailUnready_create h))

/-! ## A pod above a gap -/

/-- Three replicas, one after the other. -/
def webSpec : Spec := ⟨"web", "default", 3, "web", .orderedReady, 30, []⟩

/-- `statefulset_create` of it. -/
def webSet : StatefulSet := ⟨webSpec, fun _ => .zero, -1, -1⟩

theorem create_webSet : create "default" "web" webSpec = .ok webSet := rfl

/-- No pod is ready yet. -/
theorem noGap_of_unready (h : ∀ j, (s.podOrdinals j).ready = false) : s.NoGap := by
  intro _ _ i _ _ _ _ _ _
  rw [isOrdinalReady, h, Bool.and_false]

theorem expand_unready (h : ∀ j, (s.podOrdinals j).ready = false) (ordinal j : Nat) :
    ((s.expand ordinal).podOrdinals j).ready = false := by
  unfold expand
  split
  · dsimp only
    split
    · rfl
    · exact h j
  · exact h j

theorem setOrdinalState_unready (h : ∀ j, (s.podOrdinals j).ready = false) (ordinal : Int) (state : OrdinalState)
    (j : Nat) : ((s.setOrdinalState ordinal state).1.podOrdinals j).ready = false := by
  unfold setOrdinalState
  split
  · exact h j
  · dsimp only
    rw [Function.update_apply]
    split
    · exact expand_unready h ordinal.toNat ordinal.toNat
    · exact expand_unready h ordinal.toNat j

theorem first_pod_ordered : AllStates step Ordered webSet [.setOrdinalState 0 .running] := by
  have hunready : ∀ j, (webSet.podOrdinals j).ready = false := fun _ => rfl
  exact (ordered_iff create_webSet).mpr
    ⟨noGap_of_unready hunready, noGap_of_unready (setOrdinalState_unready hunready 0 .running)⟩

/-- **A pod is created over a gap**: the second pod is ready and the first is not, and the third is next. -/
theorem created_over_gap :
    ¬ ∀ (ns name : CString) (spec : Spec) (s : StatefulSet), create ns name spec = .ok s →
      ∀ ops : List Op, AllStates step Ordered s ops := by
  intro h
  have hrun := (h "default" "web" webSpec webSet create_webSet
    [.setOrdinalState 0 .running, .setOrdinalState 1 .running, .setOrdinalReady 1 true]).run_mem
  have hready := (hrun.create rfl 2 rfl).2.2 0 (by decide)
  exact absurd hready (by decide)

end StatefulSet

end Sirah.Stateful
