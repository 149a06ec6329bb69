import Mathlib.Data.List.Forall2
import Sirah.Autoscaler.HpaController
import Sirah.Lib.SplitFirst

/-!
# Autoscalers of different workloads

The decisions of `k8s_hpa_controller_evaluate_all` name the target only. `k8s_hpa_controller_scale_target` looks the target
up again, over all namespaces, and takes the first autoscaler that it finds.

* `applyDecisions`: the decisions are applied one after the other; `clock` gives the time of each call.
* `Follows`: what becomes of an autoscaler that produced a decision, or none.
* **`follows_iff`**: every autoscaler follows its own decision **iff** no decision was produced, or the controller is enabled
  and every autoscaler that produced one is the first with its target.
* `other_tenant_scaled`: the autoscaler of another namespace is scaled.
-/

namespace Sirah.Autoscaler

/-- The decisions are applied, the `n`-th one at time `clock n`. -/
def applyDecisions (clock : Nat → Int) : Nat → List (CString × Int) → Controller → Controller
  | _, [], c => c
  | n, (target, replicas) :: decisions, c =>
    applyDecisions clock (n + 1) decisions (c.scaleTarget target replicas (clock n)).1

/-- The autoscaler after it is scaled. -/
def Hpa.scaled (hpa : Hpa) (replicas time : Int) : Hpa :=
  { hpa with status := { hpa.status with
      lastScaleTime := time, lastScaleReplicas := replicas, currentReplicas := replicas } }

/-- **What should become of an autoscaler.** -/
structure Hpa.Follows (now : Int) (hpa hpa' : Hpa) : Prop where
  kept : hpa.proposal now = none → hpa' = hpa
  scaled : ∀ desired, hpa.proposal now = some desired → ∃ time, hpa' = hpa.scaled desired time

/-- The condition on the controller. -/
def Controller.FindsOwn (c : Controller) (now : Int) : Prop :=
  ∀ pre hpa post, c.hpas = pre ++ hpa :: post → hpa.proposal now ≠ none →
    c.enabled = true ∧ ∀ other ∈ pre, other.target ≠ hpa.target

/-! ## What is proposed -/

namespace Hpa

variable {hpa : Hpa}

theorem ite_lt_mem {lo hi x : Int} (h : lo ≤ hi) :
    lo ≤ (if (if x < lo then lo else x) > hi then hi else if x < lo then lo else x) ∧
      (if (if x < lo then lo else x) > hi then hi else if x < lo then lo else x) ≤ hi := by
  split <;> split <;> omega

/-- What is computed is within the limits of the autoscaler. -/
theorem computed_mem (hpa : Hpa) : hpa.spec.minReplicas ≤ hpa.computed ∧ hpa.computed ≤ hpa.spec.maxReplicas := by
  have hle := hpa.spec.min_le_max
  unfold computed calculateDesiredReplicas
  by_cases htarget : hpa.spec.targetCpuUtilization ≤ 0
  · rw [if_pos htarget]
    exact ⟨Int.le_refl _, hle⟩
  · rw [if_neg htarget]
    by_cases hidle : hpa.status.currentCpuUtilization = 0
    · rw [if_pos hidle]
      exact ⟨Int.le_refl _, hle⟩
    · rw [if_neg hidle]
      exact ite_lt_mem hle

/-- What is within the limits is what the autoscaler is marked with. -/
theorem markScaled_clamped {replicas : Int} (hmin : hpa.spec.minReplicas ≤ replicas)
    (hmax : replicas ≤ hpa.spec.maxReplicas) (time : Int) :
    (let replicas := if replicas < hpa.spec.minReplicas then hpa.spec.minReplicas else replicas
     let replicas := if replicas > hpa.spec.maxReplicas then hpa.spec.maxReplicas else replicas
     (hpa.markScaled replicas time).1) = hpa.scaled replicas time := by
  have hpos := hpa.spec.min_pos
  dsimp only
  rw [if_neg (Int.not_lt.mpr hmin), if_neg (Int.not_lt.mpr hmax), markScaled, if_neg (by omega)]
  rfl

/-- A proposal is what is computed, and differs from the current count. -/
theorem of_proposal {now desired : Int} (h : hpa.proposal now = some desired) :
    hpa.spec.minReplicas ≤ desired ∧ desired ≤ hpa.spec.maxReplicas ∧ desired ≠ hpa.status.currentReplicas := by
  obtain ⟨-, hne, rfl⟩ := proposal_eq_some_iff.mp h
  exact ⟨hpa.computed_mem.1, hpa.computed_mem.2, hne⟩

theorem target_scaled (replicas time : Int) : (hpa.scaled replicas time).target = hpa.target := rfl

theorem target_markScaled (replicas time : Int) : (hpa.markScaled replicas time).1.target = hpa.target := by
  unfold markScaled
  split <;> rfl

end Hpa

/-! ## One decision -/

namespace Controller

variable {c : Controller} {pre post : List Hpa} {hpa : Hpa}

/-- An autoscaler before this one has the same target. -/
def Shadowed (targets : List CString) (i : Nat) : Prop :=
  ∃ j < i, ∃ target, targets[j]? = some target ∧ targets[i]? = some target

theorem scaleTarget_of_disabled (h : c.enabled ≠ true) (target : CString) (replicas time : Int) :
    (c.scaleTarget target replicas time).1 = c := by
  have hdisabled : c.enabled = false := Bool.not_eq_true _ ▸ h
  simp [scaleTarget, hdisabled]

/-- **The first autoscaler with its target** is the one that is scaled. -/
theorem scaleTarget_own (henabled : c.enabled = true) (hhpas : c.hpas = pre ++ hpa :: post)
    (hfirst : ∀ other ∈ pre, other.target ≠ hpa.target) {replicas : Int} (hmin : hpa.spec.minReplicas ≤ replicas)
    (hmax : replicas ≤ hpa.spec.maxReplicas) (time : Int) :
    (c.scaleTarget hpa.target replicas time).1.hpas = pre ++ hpa.scaled replicas time :: post ∧
      (c.scaleTarget hpa.target replicas time).1.enabled = true := by
  have hpos := hpa.spec.min_pos
  have hindex : (c.hpas.findIdx? fun hpa' => hpa'.target = hpa.target) = some pre.length := by
    rw [hhpas]
    exact List.findIdx?_append_cons (fun other hother => decide_eq_false (hfirst other hother)) (decide_eq_true rfl)
  rw [scaleTarget, if_neg (by omega), if_neg (by simp [henabled]), hindex]
  refine ⟨?_, henabled⟩
  dsimp only
  rw [hhpas, List.modify_append_cons]
  exact congrArg (fun hpa' => pre ++ hpa' :: post) (Hpa.markScaled_clamped hmin hmax time)

/-- **What a decision leaves as it is**: the targets, and every autoscaler behind another one with its target. -/
theorem scaleTarget_frame (c : Controller) (target : CString) (replicas time : Int) :
    (c.scaleTarget target replicas time).1.hpas.map Hpa.target = c.hpas.map Hpa.target ∧
      ∀ i, Shadowed (c.hpas.map Hpa.target) i → (c.scaleTarget target replicas time).1.hpas[i]? = c.hpas[i]? := by
  unfold scaleTarget
  split
  · exact ⟨rfl, fun _ _ => rfl⟩
  split
  · exact ⟨rfl, fun _ _ => rfl⟩
  cases hindex : c.hpas.findIdx? fun hpa => hpa.target = target with
  | none => exact ⟨rfl, fun _ _ => rfl⟩
  | some k =>
    obtain ⟨hk, hfound, hbefore⟩ := List.findIdx?_eq_some_iff_getElem.mp hindex
    dsimp only
    refine ⟨List.ext_getElem? fun i => ?_, fun i hshadowed => ?_⟩
    · rw [List.getElem?_map, List.getElem?_map, List.getElem?_modify]
      cases c.hpas[i]? with
      | none => rfl
      | some hpa =>
        rw [Option.map_some]
        split
        · exact congrArg some (Hpa.target_markScaled _ time)
        · rfl
    · refine List.getElem?_modify_ne _ _ fun hki => ?_
      subst hki
      obtain ⟨j, hj, target', hj', hk'⟩ := hshadowed
      rw [List.getElem?_map] at hj' hk'
      obtain ⟨hpaJ, hgetJ, rfl⟩ := Option.map_eq_some_iff.mp hj'
      obtain ⟨hpaK, hgetK, heq⟩ := Option.map_eq_some_iff.mp hk'
      obtain ⟨hjlt, rfl⟩ := List.getElem?_eq_some_iff.mp hgetJ
      obtain ⟨hklt, rfl⟩ := List.getElem?_eq_some_iff.mp hgetK
      have htarget := of_decide_eq_true hfound
      exact hbefore j hj (decide_eq_true (heq.symm.trans htarget))

/-! ## All decisions -/

theorem applyDecisions_of_disabled (h : c.enabled ≠ true) (clock : Nat → Int) (n : Nat)
    (decisions : List (CString × Int)) : applyDecisions clock n decisions c = c := by
  induction decisions generalizing n with
  | nil => rfl
  | cons decision decisions ih =>
    obtain ⟨target, replicas⟩ := decision
    rw [applyDecisions, scaleTarget_of_disabled h]
    exact ih (n + 1)

theorem applyDecisions_frame (clock : Nat → Int) (n : Nat) (decisions : List (CString × Int)) {i : Nat}
    (h : Shadowed (c.hpas.map Hpa.target) i) : (applyDecisions clock n decisions c).hpas[i]? = c.hpas[i]? := by
  induction decisions generalizing n c with
  | nil => rfl
  | cons decision decisions ih =>
    obtain ⟨target, replicas⟩ := decision
    obtain ⟨htargets, hkept⟩ := c.scaleTarget_frame target replicas (clock n)
    rw [applyDecisions, ih (n + 1) (htargets.symm ▸ h)]
    exact hkept i h

theorem follows_self {now : Int} (h : hpa.proposal now = none) : Hpa.Follows now hpa hpa :=
  ⟨fun _ => rfl, fun _ hdesired => absurd (h.symm.trans hdesired) nofun⟩

/-- **The decisions are applied in order**: behind the autoscalers of `pre`, which follow theirs, the ones of `rest`
follow theirs. -/
theorem applyDecisions_own {now : Int} (clock : Nat → Int) (n : Nat) {rest pre' : List Hpa} (henabled : c.enabled = true)
    (hhpas : c.hpas = pre' ++ rest) (hpre : List.Forall₂ (Hpa.Follows now) pre pre')
    (htargets : pre'.map Hpa.target = pre.map Hpa.target)
    (hfirst : ∀ mid hpa post, rest = mid ++ hpa :: post → hpa.proposal now ≠ none →
      ∀ other ∈ pre ++ mid, other.target ≠ hpa.target) :
    List.Forall₂ (Hpa.Follows now) (pre ++ rest) (applyDecisions clock n
      (rest.filterMap fun hpa => (hpa.proposal now).map fun desired => (hpa.target, desired)) c).hpas := by
  induction rest generalizing n c pre pre' with
  | nil =>
    rw [List.append_nil, List.filterMap_nil, applyDecisions, hhpas, List.append_nil]
    exact hpre
  | cons hpa post ih =>
    have hfirst' : ∀ mid hpa' post', post = mid ++ hpa' :: post' → hpa'.proposal now ≠ none →
        ∀ other ∈ pre ++ [hpa] ++ mid, other.target ≠ hpa'.target := by
      intro mid hpa' post' heq hproposal other hother
      refine hfirst (hpa :: mid) hpa' post' (congrArg (hpa :: ·) heq) hproposal other ?_
      simpa using hother
    rw [List.append_cons]
    cases hproposal : hpa.proposal now with
    | none =>
      rw [List.filterMap_cons_none (by rw [hproposal]; rfl)]
      refine ih n henabled ?_ (List.rel_append hpre (.cons (follows_self hproposal) .nil)) ?_ hfirst'
      · simpa using hhpas
      · simpa using htargets
    | some desired =>
      obtain ⟨hmin, hmax, -⟩ := Hpa.of_proposal hproposal
      have hown : ∀ other ∈ pre', other.target ≠ hpa.target := by
        intro other hother heq
        have hmem : hpa.target ∈ pre.map Hpa.target := by
          rw [← htargets, ← heq]
          exact List.mem_map_of_mem hother
        obtain ⟨other', hother', heq'⟩ := List.mem_map.mp hmem
        refine hfirst [] hpa post rfl ?_ other' (List.mem_append_left _ hother') heq'
        rw [hproposal]
        exact nofun
      obtain ⟨hscaled, henabled'⟩ := scaleTarget_own henabled hhpas hown hmin hmax (clock n)
      have hfollows : Hpa.Follows now hpa (hpa.scaled desired (clock n)) := by
        refine ⟨fun hnone => absurd (hproposal.symm.trans hnone) nofun, fun desired' hdesired => ⟨clock n, ?_⟩⟩
        rw [Option.some_inj.mp (hproposal.symm.trans hdesired)]
      rw [List.filterMap_cons_some (by rw [hproposal]; rfl), applyDecisions]
      refine ih (n + 1) henabled' ?_ (List.rel_append hpre (.cons hfollows .nil)) ?_ hfirst'
      · simpa using hscaled
      · simpa [Hpa.target_scaled] using htargets

/-- **Every autoscaler follows its own decision, exactly** under the condition. -/
theorem follows_iff (c : Controller) (now : Int) (clock : Nat → Int) (n : Nat) :
    List.Forall₂ (Hpa.Follows now) c.hpas (applyDecisions clock n (c.evaluateAll now) c).hpas ↔ c.FindsOwn now := by
  constructor
  · intro h pre hpa post hhpas hproposal
    obtain ⟨desired, hdesired⟩ := Option.ne_none_iff_exists'.mp hproposal
    have hget : c.hpas[pre.length]? = some hpa := by simp [hhpas]
    obtain ⟨hlt, hpa_eq⟩ := List.getElem?_eq_some_iff.mp hget
    -- an autoscaler that keeps its place in the result does not follow its decision
    have hnot : (applyDecisions clock n (c.evaluateAll now) c).hpas[pre.length]? ≠ some hpa := by
      intro hsame
      obtain ⟨hlt', heq⟩ := List.getElem?_eq_some_iff.mp hsame
      have hfollows := h.get hlt hlt'
      simp only [List.get_eq_getElem, heq, hpa_eq] at hfollows
      obtain ⟨time, hscaled⟩ := hfollows.scaled desired hdesired
      exact (Hpa.of_proposal hdesired).2.2 (congrArg (·.status.currentReplicas) hscaled).symm
    constructor
    · by_contra henabled
      rw [applyDecisions_of_disabled henabled] at hnot
      exact hnot hget
    · intro other hother heq
      refine hnot ((applyDecisions_frame clock n _ ?_).trans hget)
      obtain ⟨j, hj, hgetJ⟩ := List.mem_iff_getElem.mp hother
      refine ⟨j, hj, hpa.target, ?_, ?_⟩
      · rw [hhpas, List.getElem?_map, List.getElem?_append_left hj, List.getElem?_eq_getElem hj, hgetJ]
        exact congrArg some heq
      · simp [hget]
  · intro h
    by_cases henabled : c.enabled = true
    · have hnil : List.Forall₂ (Hpa.Follows now) [] [] := .nil
      exact applyDecisions_own clock n henabled rfl hnil rfl fun mid hpa post heq hproposal =>
        (h mid hpa post heq hproposal).2
    · have hnone : ∀ hpa ∈ c.hpas, hpa.proposal now = none := by
        intro hpa hhpa
        obtain ⟨pre, post, heq⟩ := List.append_of_mem hhpa
        by_contra hproposal
        exact henabled (h pre hpa post heq hproposal).1
      rw [applyDecisions_of_disabled henabled]
      exact List.forall₂_same.mpr fun hpa hhpa => follows_self (hnone hpa hhpa)

/-- **The autoscaler of another namespace** is scaled, and the one that is loaded is not. -/
theorem other_tenant_scaled : ¬ ∀ (c : Controller) (now : Int) (clock : Nat → Int),
    List.Forall₂ (Hpa.Follows now) c.hpas (applyDecisions clock 0 (c.evaluateAll now) c).hpas := by
  intro h
  have hfollows := h ⟨10, [⟨"web", "a", ⟨"web", 1, 10, 80, 60, 300, 50, 50, by decide, by decide⟩, ⟨2, 2, 80, 0, 0, 2⟩⟩,
    ⟨"web", "b", ⟨"web", 1, 10, 80, 60, 300, 50, 50, by decide, by decide⟩, ⟨2, 2, 100, 0, 0, 2⟩⟩], [], true⟩ 400
    fun _ => 400
  cases hfollows with
  | cons hfirst _ => exact absurd (hfirst.kept (by decide)) (by decide)

end Controller

end Sirah.Autoscaler
