import Sirah.Lib.CString
import Sirah.Lib.Run
import Sirah.Lib.Signed

/-!
# The autoscaler

Model of `internal/controller/hpa_controller.c` over `pkg/types/hpa.c`: `k8s_hpa_controller_evaluate_all` proposes replica
counts, `k8s_hpa_controller_scale_target` sets one.

* An `int` is an `Int`; what is computed wraps (`Int.wrap32`). `time(NULL)` is an argument of the calls that read it.
* A spec has `1 ≤ min_replicas ≤ max_replicas`: `k8s_hpa_spec_new` starts so, and `k8s_hpa_set_replicas` refuses the rest.
* `HonoursWindows`: what is proposed has waited for the window of its direction, and is not kept waiting longer.
* **`honoursWindows_iff`**: it holds along a run **iff** in every evaluation the window that the status picks is over
  exactly if the one of the computed direction is. `desiredReplicas_run`: nothing in a run writes the field that picks it.
* `scale_up_delayed`: a higher count waits for the window of a lower one.
-/

namespace Sirah.Autoscaler

open Runs

/-! ## Data -/

/-- `k8s_hpa_spec_t`. -/
structure HpaSpec where
  scaleTargetRef : CString
  minReplicas : Int
  maxReplicas : Int
  targetCpuUtilization : Int
  upscaleWindowSeconds : Int
  downscaleWindowSeconds : Int
  upscalePolicyPercent : Int
  downscalePolicyPercent : Int
  min_pos : 1 ≤ minReplicas
  min_le_max : minReplicas ≤ maxReplicas
  deriving DecidableEq

/-- `k8s_hpa_status_t`. -/
structure HpaStatus where
  currentReplicas : Int
  desiredReplicas : Int
  currentCpuUtilization : Int
  currentMemoryUtilization : Int
  lastScaleTime : Int
  lastScaleReplicas : Int
  deriving DecidableEq

/-- `k8s_hpa_t`. -/
structure Hpa where
  name : CString
  ns : CString
  spec : HpaSpec
  status : HpaStatus
  deriving DecidableEq

/-- One entry of the scaling history. -/
structure ScaledTarget where
  target : CString
  count : Int
  timestamp : Int
  deriving DecidableEq

/-- `k8s_hpa_controller_t`. -/
structure Controller where
  maxHpas : Nat
  hpas : List Hpa
  scaledTargets : List ScaledTarget
  enabled : Bool
  deriving DecidableEq

/-! ## One autoscaler -/

namespace Hpa

variable (hpa : Hpa)

/-- What is targeted. -/
def target : CString := hpa.spec.scaleTargetRef

/-- `k8s_hpa_calculate_desired_replicas`. -/
def calculateDesiredReplicas (currentUtilization targetUtilization : Int) : Int :=
  if targetUtilization ≤ 0 then hpa.spec.minReplicas
  else if currentUtilization = 0 then hpa.spec.minReplicas
  else
    let current := hpa.status.currentReplicas
    let desired := (Int.wrap32 (Int.wrap32 (current * currentUtilization) + targetUtilization - 1)).tdiv targetUtilization
    let desired :=
      if desired > current then
        let maxIncrease := (Int.wrap32 (current * hpa.spec.upscalePolicyPercent)).tdiv 100
        Int.wrap32 (current + if maxIncrease = 0 then 1 else maxIncrease)
      else if desired < current then
        let maxDecrease := (Int.wrap32 (current * hpa.spec.downscalePolicyPercent)).tdiv 100
        Int.wrap32 (current - if maxDecrease = 0 then 1 else maxDecrease)
      else desired
    let desired := if desired < hpa.spec.minReplicas then hpa.spec.minReplicas else desired
    if desired > hpa.spec.maxReplicas then hpa.spec.maxReplicas else desired

/-- What `k8s_hpa_controller_evaluate_all` computes for an autoscaler. -/
def computed : Int :=
  hpa.calculateDesiredReplicas hpa.status.currentCpuUtilization hpa.spec.targetCpuUtilization

/-- `elapsed` of `k8s_hpa_controller_evaluate_all`. -/
def elapsed (now : Int) : Int := Int.wrap32 (now - hpa.status.lastScaleTime)

/-- `min_window` of `k8s_hpa_controller_evaluate_all`. -/
def minWindow : Int :=
  if hpa.status.desiredReplicas > hpa.status.currentReplicas then hpa.spec.upscaleWindowSeconds
  else hpa.spec.downscaleWindowSeconds

/-- The body of the loop of `k8s_hpa_controller_evaluate_all`: what it proposes for the autoscaler. -/
def proposal (now : Int) : Option Int :=
  if hpa.elapsed now < hpa.minWindow then none
  else if hpa.computed ≠ hpa.status.currentReplicas then some hpa.computed
  else none

/-- `k8s_hpa_mark_scaled`. -/
def markScaled (replicaCount now : Int) : Hpa × Int :=
  if replicaCount < 1 then (hpa, -1)
  else
    ({ hpa with status := { hpa.status with
        lastScaleTime := now, lastScaleReplicas := replicaCount, currentReplicas := replicaCount } }, 0)

/-- `k8s_hpa_update_current_metrics`. -/
def updateCurrentMetrics (cpuUtil memUtil : Int) : Hpa × Int :=
  if cpuUtil < 0 ∨ memUtil < 0 then (hpa, -1)
  else
    ({ hpa with status := { hpa.status with
        currentCpuUtilization := cpuUtil, currentMemoryUtilization := memUtil } }, 0)

end Hpa

/-! ## The controller -/

namespace Controller

variable (c : Controller)

/-- `k8s_hpa_controller_evaluate_all`: the targets with the replica counts that are proposed for them. -/
def evaluateAll (now : Int) : List (CString × Int) :=
  c.hpas.filterMap fun hpa => (hpa.proposal now).map fun desired => (hpa.target, desired)

/-- The scaling history of `k8s_hpa_controller_scale_target`. -/
def recordScaling (target : CString) (now : Int) : List ScaledTarget :=
  match c.scaledTargets.findIdx? fun s => s.target = target with
  | some j => c.scaledTargets.modify j fun s => { s with count := Int.wrap32 (s.count + 1), timestamp := Int.wrap32 now }
  | none =>
    if c.scaledTargets.length < c.maxHpas then c.scaledTargets ++ [⟨target, 1, Int.wrap32 now⟩] else c.scaledTargets

/-- `k8s_hpa_controller_scale_target`. -/
def scaleTarget (target : CString) (replicas now : Int) : Controller × Int :=
  if replicas < 1 then (c, -1)
  else if !c.enabled then (c, -1)
  else
    match c.hpas.findIdx? fun hpa => hpa.target = target with
    | none => (c, -1)
    | some i =>
      ({ c with
          hpas := c.hpas.modify i fun hpa =>
            let replicas := if replicas < hpa.spec.minReplicas then hpa.spec.minReplicas else replicas
            let replicas := if replicas > hpa.spec.maxReplicas then hpa.spec.maxReplicas else replicas
            (hpa.markScaled replicas now).1
          scaledTargets := c.recordScaling target now }, 0)

/-- `k8s_hpa_controller_update_metrics`. -/
def updateMetrics (target : CString) (cpuUtilization memoryUtilization : Int) : Controller × Int :=
  ({ c with hpas := c.hpas.map fun hpa =>
      if hpa.target = target then (hpa.updateCurrentMetrics cpuUtilization memoryUtilization).1 else hpa }, 0)

end Controller

/-! ## Runs -/

/-- A call, with the time at which it is made. -/
inductive Op where
  | updateMetrics (target : CString) (cpuUtilization memoryUtilization now : Int)
  | evaluateAll (now : Int)
  | scaleTarget (target : CString) (replicas now : Int)

def Controller.step (c : Controller) : Op → Controller
  | .updateMetrics target cpuUtilization memoryUtilization _ => (c.updateMetrics target cpuUtilization memoryUtilization).1
  | .evaluateAll _ => c
  | .scaleTarget target replicas now => (c.scaleTarget target replicas now).1

/-- The window of the direction of what is computed. -/
def Hpa.directionWindow (hpa : Hpa) : Int :=
  if hpa.computed > hpa.status.currentReplicas then hpa.spec.upscaleWindowSeconds else hpa.spec.downscaleWindowSeconds

/-- **What an evaluation should propose.** -/
structure Hpa.HonoursWindows (hpa : Hpa) (now : Int) : Prop where
  up : ∀ desired, hpa.proposal now = some desired → hpa.status.currentReplicas < desired →
    hpa.spec.upscaleWindowSeconds ≤ now - hpa.status.lastScaleTime
  down : ∀ desired, hpa.proposal now = some desired → desired < hpa.status.currentReplicas →
    hpa.spec.downscaleWindowSeconds ≤ now - hpa.status.lastScaleTime
  prompt : hpa.computed ≠ hpa.status.currentReplicas → hpa.directionWindow ≤ now - hpa.status.lastScaleTime →
    hpa.proposal now = some hpa.computed

/-- The condition on an autoscaler. -/
def Hpa.PicksWindow (hpa : Hpa) (now : Int) : Prop :=
  hpa.computed ≠ hpa.status.currentReplicas →
    (hpa.minWindow ≤ hpa.elapsed now ↔ hpa.directionWindow ≤ now - hpa.status.lastScaleTime)

def Controller.HonoursWindows (c : Controller) : Op → Prop
  | .updateMetrics _ _ _ _ => True
  | .evaluateAll now => ∀ hpa ∈ c.hpas, hpa.HonoursWindows now
  | .scaleTarget _ _ _ => True

/-- The condition on a call. -/
def Controller.PicksWindows (c : Controller) : Op → Prop
  | .updateMetrics _ _ _ _ => True
  | .evaluateAll now => ∀ hpa ∈ c.hpas, hpa.PicksWindow now
  | .scaleTarget _ _ _ => True

/-! ## One autoscaler, exactly -/

theorem Hpa.proposal_eq_some_iff {hpa : Hpa} {now desired : Int} : hpa.proposal now = some desired ↔
    hpa.minWindow ≤ hpa.elapsed now ∧ hpa.computed ≠ hpa.status.currentReplicas ∧ hpa.computed = desired := by
  unfold proposal
  by_cases hwindow : hpa.elapsed now < hpa.minWindow
  · rw [if_pos hwindow]
    exact iff_of_false nofun fun h => absurd h.1 (Int.not_le.mpr hwindow)
  · rw [if_neg hwindow]
    by_cases hne : hpa.computed ≠ hpa.status.currentReplicas
    · rw [if_pos hne, Option.some_inj]
      exact ⟨fun h => ⟨Int.not_lt.mp hwindow, hne, h⟩, fun h => h.2.2⟩
    · rw [if_neg hne]
      exact iff_of_false nofun fun h => hne h.2.1

/-- **One evaluation, exactly.** -/
theorem Hpa.honoursWindows_iff_picksWindow {hpa : Hpa} {now : Int} :
    hpa.HonoursWindows now ↔ hpa.PicksWindow now := by
  constructor
  · intro h hne
    constructor
    · intro hwindow
      have hproposal := proposal_eq_some_iff.mpr ⟨hwindow, hne, rfl⟩
      unfold directionWindow
      by_cases hup : hpa.computed > hpa.status.currentReplicas
      · rw [if_pos hup]
        exact h.up hpa.computed hproposal hup
      · rw [if_neg hup]
        exact h.down hpa.computed hproposal (Int.lt_iff_le_and_ne.mpr ⟨Int.not_lt.mp hup, hne⟩)
    · intro hwindow
      exact (proposal_eq_some_iff.mp (h.prompt hne hwindow)).1
  · intro h
    refine ⟨fun desired hproposal hup => ?_, fun desired hproposal hdown => ?_, fun hne hwindow => ?_⟩
    · obtain ⟨hwindow, hne, rfl⟩ := proposal_eq_some_iff.mp hproposal
      have hdirection := (h hne).mp hwindow
      rwa [directionWindow, if_pos hup] at hdirection
    · obtain ⟨hwindow, hne, rfl⟩ := proposal_eq_some_iff.mp hproposal
      have hdirection := (h hne).mp hwindow
      rwa [directionWindow, if_neg (Int.not_lt.mpr (Int.le_of_lt hdown))] at hdirection
    · exact proposal_eq_some_iff.mpr ⟨(h hne).mpr hwindow, hne, rfl⟩

/-! ## Runs of the controller -/

namespace Controller

variable {c : Controller}

/-- No call of a run writes `desired_replicas`, which picks the window. -/
theorem desiredReplicas_step (op : Op) :
    (c.step op).hpas.map (·.status.desiredReplicas) = c.hpas.map (·.status.desiredReplicas) := by
  have hmark : ∀ (hpa : Hpa) (replicas now : Int),
      (hpa.markScaled replicas now).1.status.desiredReplicas = hpa.status.desiredReplicas := by
    intro hpa replicas now
    unfold Hpa.markScaled
    split <;> rfl
  cases op with
  | updateMetrics target cpuUtilization memoryUtilization now =>
    rw [step, updateMetrics, List.map_map]
    refine List.map_congr_left fun hpa _ => ?_
    rw [Function.comp_apply]
    unfold Hpa.updateCurrentMetrics
    split
    · split <;> rfl
    · rfl
  | evaluateAll now => rfl
  | scaleTarget target replicas now =>
    unfold step scaleTarget
    dsimp only
    split
    · rfl
    · split
      · rfl
      · split
        · rfl
        · refine List.ext_getElem? fun i => ?_
          simp only [List.getElem?_map, List.getElem?_modify]
          cases c.hpas[i]? with
          | none => rfl
          | some hpa =>
            rw [Option.map_some]
            split
            · exact congrArg some (hmark hpa _ now)
            · rfl

theorem desiredReplicas_run (ops : List Op) :
    (run step c ops).hpas.map (·.status.desiredReplicas) = c.hpas.map (·.status.desiredReplicas) := by
  induction ops generalizing c with
  | nil => rfl
  | cons op ops ih => exact ih.trans (desiredReplicas_step op)

/-- **The windows are honoured, exactly** along the runs whose evaluations all pick them. -/
theorem honoursWindows_iff {ops : List Op} :
    AllSteps step HonoursWindows c ops ↔ AllSteps step PicksWindows c ops := by
  refine allSteps_congr (I := fun _ => True) (fun c op _ => ?_) (allStates_of_step (fun _ _ _ => trivial) trivial)
  cases op with
  | updateMetrics target cpuUtilization memoryUtilization now => exact Iff.rfl
  | evaluateAll now => exact forall₂_congr fun hpa _ => Hpa.honoursWindows_iff_picksWindow
  | scaleTarget target replicas now => exact Iff.rfl

/-- **A higher count waits for the longer window** of a lower one. -/
theorem scale_up_delayed : ¬ ∀ (c : Controller) (ops : List Op), AllSteps step HonoursWindows c ops := by
  intro h
  have hhonours := (h ⟨10, [⟨"web", "a", ⟨"web", 1, 10, 80, 60, 300, 50, 50, by decide, by decide⟩,
    ⟨1, 1, 0, 0, 0, 1⟩⟩], [], true⟩ [.updateMetrics "web" 100 0 90, .evaluateAll 100]).2.1 _ List.mem_cons_self
  exact absurd (hhonours.prompt (by decide) (by decide)) (by decide)

end Controller

end Sirah.Autoscaler
