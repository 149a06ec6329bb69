import Sirah.Lib.InitialSegment
import Sirah.StatefulSet.Ordering

/-!
# The ready ordinal

`ready_ordinal` is meant to be the highest consecutive ready ordinal: all pods up to it are ready, and the next one is
not. `statefulset_set_ordinal_ready` counts one pod when it becomes ready right behind those counted. It does not
look at pods that became ready before, and does not go back.

* `Exact`: the value is what it is meant to be.
* **`readyOrdinal_exact_iff`**: it is in every state of a run **iff** no pod of the run loses readiness while it is
  counted, and none is counted while the one behind it is ready already.
* `counts_unready_pod`: the first pod is ready, and then it is not.
-/

namespace Sirah.Stateful

open Runs InitialSegment

namespace StatefulSet

/-- `statefulset_get_ready_ordinal`. -/
def getReadyOrdinal (s : StatefulSet) : Int := s.readyOrdinal

/-- **The highest consecutive ready ordinal** is what is returned; -1 if the first pod is not ready. -/
def Exact (s : StatefulSet) : Prop :=
  IsGreatest {k : Int | -1 ≤ k ∧ ∀ j : Nat, (j : Int) ≤ k → s.isOrdinalReady j = true} s.getReadyOrdinal

/-- A pod that loses readiness is not one that is counted, and behind one that is counted now none is ready. -/
def KeepsExact (s : StatefulSet) : Op → Prop
  | .setOrdinalReady ordinal true =>
    0 ≤ ordinal → ordinal ≤ s.maxOrdinal → ordinal = s.readyOrdinal + 1 → s.isOrdinalReady (ordinal.toNat + 1) = false
  | .setOrdinalReady ordinal false => 0 ≤ ordinal → ordinal ≤ s.maxOrdinal → s.readyOrdinal < ordinal
  | _ => True

variable {s : StatefulSet}

theorem exact_iff_upTo (htail : s.TailUnready) :
    s.Exact ↔ IsGreatest (upTo fun j => (s.podOrdinals j).ready) s.readyOrdinal := by
  simp only [Exact, htail.isOrdinalReady]
  exact Iff.rfl

/-- New places are not ready. -/
theorem ready_expand (htail : s.TailUnready) (ordinal j : Nat) :
    ((s.expand ordinal).podOrdinals j).ready = (s.podOrdinals j).ready := by
  unfold expand
  split
  · dsimp only
    split
    · next h => exact (htail j h.1).symm
    · rfl
  · rfl

theorem readyOrdinal_expand (s : StatefulSet) (ordinal : Nat) : (s.expand ordinal).readyOrdinal = s.readyOrdinal := by
  unfold expand
  split <;> rfl

/-- A state of a pod says nothing about readiness. -/
theorem ready_setOrdinalState (htail : s.TailUnready) (ordinal : Int) (state : OrdinalState) :
    (fun j => ((s.setOrdinalState ordinal state).1.podOrdinals j).ready) = (fun j => (s.podOrdinals j).ready) ∧
      (s.setOrdinalState ordinal state).1.readyOrdinal = s.readyOrdinal := by
  unfold setOrdinalState
  split
  · exact ⟨rfl, rfl⟩
  · refine ⟨funext fun j => ?_, readyOrdinal_expand s ordinal.toNat⟩
    dsimp only
    rw [Function.update_apply]
    split
    · next h => rw [h, ready_expand htail]
    · exact ready_expand htail ordinal.toNat j

/-- Readiness of one pod is set, and the counter goes on if the pod is the next one. -/
theorem ready_setOrdinalReady {ordinal : Int} (ready : Bool) (hpos : 0 ≤ ordinal) (hmax : ordinal ≤ s.maxOrdinal) :
    (fun j => ((s.setOrdinalReady ordinal ready).1.podOrdinals j).ready) =
        Function.update (fun j => (s.podOrdinals j).ready) ordinal.toNat ready ∧
      (s.setOrdinalReady ordinal ready).1.readyOrdinal = advance s.readyOrdinal ordinal.toNat ready := by
  unfold setOrdinalReady advance
  rw [if_neg (by omega)]
  refine ⟨funext fun j => ?_, ?_⟩
  · dsimp only
    rw [Function.update_apply, Function.update_apply]
    split <;> rfl
  · rw [Int.toNat_of_nonneg hpos]

/-- **What a call does to the ready ordinal.** -/
theorem exact_step_iff (op : Op) (htail : s.TailUnready) (h : s.Exact) : (s.step op).Exact ↔ s.KeepsExact op := by
  rw [exact_iff_upTo (tailUnready_step op htail)]
  have hbefore := (exact_iff_upTo htail).mp h
  cases op with
  | update spec =>
    refine iff_of_true ?_ trivial
    simp only [step, update]
    cases validateSpec spec <;> exact hbefore
  | setOrdinalState ordinal state =>
    refine iff_of_true ?_ trivial
    obtain ⟨hready, hcount⟩ := ready_setOrdinalState htail ordinal state
    simp only [step]
    rw [hready, hcount]
    exact hbefore
  | setOrdinalReady ordinal ready =>
    by_cases hin : 0 ≤ ordinal ∧ ordinal ≤ s.maxOrdinal
    · obtain ⟨hready, hcount⟩ := ready_setOrdinalReady ready hin.1 hin.2
      simp only [step]
      rw [hready, hcount, isGreatest_upTo_update_iff hbefore]
      cases ready <;> simp only [Keeps, KeepsExact, Int.toNat_of_nonneg hin.1, hin, forall_const, htail.isOrdinalReady]
    · have hfail : s.setOrdinalReady ordinal ready = (s, -1) := if_pos (by omega)
      simp only [step, hfail]
      refine iff_of_true hbefore ?_
      cases ready <;> exact fun hpos hmax => absurd ⟨hpos, hmax⟩ hin

theorem exact_create {ns name : CString} {spec : Spec} (h : create ns name spec = .ok s) : s.Exact := by
  rw [exact_iff_upTo (tailUnready_create h), isGreatest_upTo_iff]
  unfold create at h
  split at h
  · cases h
  · cases h
    exact ⟨Int.le_refl _, fun j hj => absurd hj (by dsimp only; omega), rfl⟩

/-- **The ready ordinal is the highest consecutive one, exactly** along the runs whose calls keep it so. -/
theorem readyOrdinal_exact_iff {ns name : CString} {spec : Spec} (h : create ns name spec = .ok s) (ops : List Op) :
    AllStates step Exact s ops ↔ AllSteps step KeepsExact s ops :=
  allStates_iff_allSteps (A := fun _ _ => True) (fun _ op htail _ => tailUnready_step op htail)
    (fun _ op htail _ hexact => exact_step_iff op htail hexact) (tailUnready_create h) (exact_create h) allSteps_true

theorem pods_in_order_exact :
    AllStates step Exact webSet [.setOrdinalState 0 .running, .setOrdinalReady 0 true] :=
  (readyOrdinal_exact_iff create_webSet _).mpr ⟨trivial, fun _ _ _ => rfl, trivial⟩

/-- **A pod that is not ready any more** is still counted. -/
theorem counts_unready_pod :
    ¬ ∀ (ns name : CString) (spec : Spec) (s : StatefulSet), create ns name spec = .ok s →
      ∀ ops : List Op, AllStates step Exact s ops := by
  intro h
  have hrun := (h "default" "web" webSpec webSet create_webSet
    [.setOrdinalState 0 .running, .setOrdinalReady 0 true, .setOrdinalReady 0 false]).run_mem
  have hready := hrun.1.2 0 (by decide)
  exact absurd hready (by decide)

end StatefulSet

end Sirah.Stateful
