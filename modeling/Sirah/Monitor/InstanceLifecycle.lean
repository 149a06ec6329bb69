import Mathlib.Data.List.Forall2
import Sirah.Lib.CString
import Sirah.Lib.Run
import Sirah.Lib.SplitFirst

/-!
# Instance lifecycle

Model of `internal/monitor/instance_lifecycle.c`: instances with a process, a state and a count of restarts,
and a monitor that passes over them again and again. A pass that finds a process dead sets the state of the
instance to `FAILED` and restarts it unless the node drains or `instance_metadata_should_restart` refuses.

A process dies when it will (`Op.death`), and a shutdown takes time: between the call, which sets `STOPPING`,
and its return, which sets `STOPPED`, everything else may happen.

* `LeftStopped`: a monitor pass neither counts a restart of an instance that was stopped nor puts it into
  `RESTARTING`.
* **`left_stopped_iff`**: along a run every pass leaves what was stopped **iff** every pass that finds the
  process of a stopped instance dead is made in drain mode or after five restarts.
* `restarts_bounded`: along every run an instance is restarted at most five times.
* `stopped_instance_restarted`: the state is overwritten before it is asked for.
-/

namespace Sirah.InstanceLifecycle

open Runs

/-! ## Instances -/

/-- `instance_state_t`. -/
inductive State where
  | created
  | running
  | ready
  | notReady
  | restarting
  | stopping
  | stopped
  | failed
  | draining
  deriving DecidableEq

/-- `instance_metadata_t`, the fields that the monitor and the shutdown calls use. Beside them: does its
process run, how many shutdown calls on it have not returned, and was it stopped deliberately? -/
structure Instance where
  podName : CString
  processId : Int
  state : State
  restartCount : Nat
  alive : Bool
  shutdowns : Nat
  deliberate : Bool
  deriving DecidableEq

/-- `instance_metadata_create`. -/
def Instance.create (podName : CString) : Instance where
  podName := podName
  processId := 0
  state := .created
  restartCount := 0
  alive := false
  shutdowns := 0
  deliberate := false

/-- `instance_metadata_set_state`. An instance that is set to `DRAINING` is stopped deliberately. -/
def Instance.setState (inst : Instance) (state : State) : Instance :=
  { inst with state := state, deliberate := inst.deliberate || state == .draining }

/-- `instance_metadata_set_process`, with a process that runs. -/
def Instance.setProcess (inst : Instance) (pid : Int) : Instance :=
  if pid ≤ 0 then inst else { inst with processId := pid, alive := true }

/-- `instance_metadata_record_restart`. -/
def Instance.recordRestart (inst : Instance) : Instance :=
  { inst with restartCount := inst.restartCount + 1, state := .restarting }

/-- `instance_metadata_should_restart`. -/
def Instance.shouldRestart (inst : Instance) : Bool :=
  if inst.state = .draining ∨ inst.state = .stopping ∨ inst.state = .stopped then false
  else if inst.restartCount ≥ 5 then false
  else true

/-- `instance_restart`. -/
def Instance.restart (inst : Instance) : Instance :=
  if inst.shouldRestart then inst.recordRestart else inst

/-- `instance_shutdown_graceful` and `instance_shutdown_force`, up to the signal. -/
def Instance.shutdown (inst : Instance) : Instance :=
  if inst.processId ≤ 0 then inst else { inst.setState .stopping with shutdowns := inst.shutdowns + 1 }

/-- One of them returns true. -/
def Instance.shutdownReturn (inst : Instance) : Instance :=
  if inst.shutdowns = 0 then inst
  else { inst.setState .stopped with shutdowns := inst.shutdowns - 1, deliberate := true }

/-- `kill(pid, 0)` fails: the process of the instance does not exist. -/
def Instance.processDead (inst : Instance) : Bool := decide (inst.processId > 0) && !inst.alive

/-- What `instance_lifecycle_monitor_thread` does with one instance. -/
def Instance.monitor (drainMode : Bool) (inst : Instance) : Instance :=
  if inst.processDead then
    if !drainMode && (inst.setState .failed).shouldRestart then (inst.setState .failed).recordRestart
    else inst.setState .failed
  else inst

/-! ## The manager -/

/-- `instance_lifecycle_manager_t`. -/
structure Manager where
  instances : List Instance
  drainMode : Bool
  deriving DecidableEq

/-- `instance_lifecycle_manager_create`. -/
def Manager.create : Manager := ⟨[], false⟩

/-- The calls, the passes of the monitor and the deaths of processes. An instance is named by its place. -/
inductive Op where
  /-- `instance_lifecycle_manager_add` of a new instance. -/
  | add (podName : CString)
  /-- `instance_lifecycle_manager_remove`. -/
  | remove (podName : CString)
  | setProcess (i : Nat) (pid : Int)
  | setState (i : Nat) (state : State)
  | shutdown (i : Nat)
  | shutdownReturn (i : Nat)
  | restart (i : Nat)
  | death (i : Nat)
  | enableDrain
  | disableDrain
  | monitorPass

/-- The instance at a place is changed. -/
def Manager.modify (m : Manager) (i : Nat) (f : Instance → Instance) : Manager :=
  { m with instances := m.instances.modify i f }

def step (m : Manager) : Op → Manager
  | .add podName => { m with instances := m.instances ++ [Instance.create podName] }
  | .remove podName => { m with instances := m.instances.eraseP fun inst => inst.podName == podName }
  | .setProcess i pid => m.modify i fun inst => inst.setProcess pid
  | .setState i state => m.modify i fun inst => inst.setState state
  | .shutdown i => m.modify i Instance.shutdown
  | .shutdownReturn i => m.modify i Instance.shutdownReturn
  | .restart i => m.modify i Instance.restart
  | .death i => m.modify i fun inst => { inst with alive := false }
  | .enableDrain => { m with drainMode := true }
  | .disableDrain => { m with drainMode := false }
  | .monitorPass => { m with instances := m.instances.map (Instance.monitor m.drainMode) }

/-! ## What was stopped -/

/-- **A pass leaves what was stopped**: it counts no restart of it and does not put it into `RESTARTING`. -/
def LeftStopped (m : Manager) : Op → Prop
  | .monitorPass => List.Forall₂ (fun inst inst' : Instance => inst.deliberate = true →
      inst'.restartCount = inst.restartCount ∧ (inst'.state = .restarting → inst.state = .restarting))
      m.instances (step m .monitorPass).instances
  | _ => True

/-- A pass that finds the process of a stopped instance dead is made in drain mode, or after five
restarts. -/
def Shielded (m : Manager) : Op → Prop
  | .monitorPass => ∀ inst ∈ m.instances, inst.deliberate = true → inst.processDead = true →
      m.drainMode = true ∨ 5 ≤ inst.restartCount
  | _ => True

variable {m : Manager} {op : Op} {inst : Instance} {drainMode : Bool}

/-- **The state is overwritten before it is asked for**: whether the monitor restarts an instance does not
depend on the state it was in. -/
theorem shouldRestart_failed : (inst.setState .failed).shouldRestart = decide (inst.restartCount < 5) := by
  unfold Instance.shouldRestart Instance.setState
  simp only [reduceCtorEq, or_self, if_false]
  split
  · rename_i h
    exact (decide_eq_false (Nat.not_lt.mpr h)).symm
  · rename_i h
    exact (decide_eq_true (Nat.lt_of_not_le h)).symm

/-- What the monitor does: nothing, a failure, or a restart. -/
theorem monitor_cases (inst : Instance) (drainMode : Bool) :
    (inst.processDead = false ∧ inst.monitor drainMode = inst) ∨
    (inst.processDead = true ∧ (drainMode = true ∨ 5 ≤ inst.restartCount) ∧
      inst.monitor drainMode = inst.setState .failed) ∨
    (inst.processDead = true ∧ drainMode = false ∧ inst.restartCount < 5 ∧
      inst.monitor drainMode = (inst.setState .failed).recordRestart) := by
  unfold Instance.monitor
  rw [shouldRestart_failed]
  cases inst.processDead with
  | false => exact .inl ⟨rfl, rfl⟩
  | true =>
    cases drainMode with
    | true => exact .inr (.inl ⟨rfl, .inl rfl, rfl⟩)
    | false =>
      by_cases h : inst.restartCount < 5
      · exact .inr (.inr ⟨rfl, rfl, h, by simp [h]⟩)
      · exact .inr (.inl ⟨rfl, .inr (Nat.le_of_not_lt h), by simp [h]⟩)

theorem monitor_left_iff :
    ((inst.monitor drainMode).restartCount = inst.restartCount ∧
      ((inst.monitor drainMode).state = .restarting → inst.state = .restarting)) ↔
      (inst.processDead = true → drainMode = true ∨ 5 ≤ inst.restartCount) := by
  obtain ⟨halive, heq⟩ | ⟨hdead, hshield, heq⟩ | ⟨hdead, hdrain, hcount, heq⟩ :=
    monitor_cases inst drainMode
  · rw [heq]
    exact iff_of_true ⟨rfl, id⟩ fun hdead => absurd (halive.symm.trans hdead) Bool.false_ne_true
  · rw [heq]
    exact iff_of_true ⟨rfl, nofun⟩ fun _ => hshield
  · rw [heq]
    refine iff_of_false ?_ ?_
    · rintro ⟨hsame, -⟩
      exact absurd hsame (Nat.succ_ne_self _)
    · intro h
      rcases h hdead with hdrain' | hcount'
      · exact absurd (hdrain.symm.trans hdrain') Bool.false_ne_true
      · omega

theorem leftStopped_step_iff : LeftStopped m op ↔ Shielded m op := by
  cases op with
  | monitorPass =>
    unfold LeftStopped Shielded
    rw [step, List.forall₂_map_right_iff, List.forall₂_same]
    exact forall₂_congr fun inst _ => imp_congr_right fun _ => monitor_left_iff
  | _ => exact Iff.rfl

/-- **What was stopped stays stopped, exactly** along the runs in which every pass that finds the process of
a stopped instance dead is made in drain mode or after five restarts. -/
theorem left_stopped_iff {ops : List Op} :
    AllSteps step LeftStopped m ops ↔ AllSteps step Shielded m ops :=
  allSteps_congr (I := fun _ => True) (fun _ _ _ => leftStopped_step_iff) (allStates_of_step (fun _ _ h => h) trivial)

/-! ## The number of restarts -/

/-- No instance was restarted more than five times. -/
def Bounded (m : Manager) : Prop := ∀ inst ∈ m.instances, inst.restartCount ≤ 5

theorem Bounded.modify {i : Nat} {f : Instance → Instance} (h : Bounded m)
    (hf : ∀ inst, inst.restartCount ≤ 5 → (f inst).restartCount ≤ 5) : Bounded (m.modify i f) :=
  List.forall_mem_modify h hf

theorem restartCount_lt_of_shouldRestart (h : inst.shouldRestart = true) : inst.restartCount < 5 := by
  unfold Instance.shouldRestart at h
  split_ifs at h with _ hcount
  exact Nat.lt_of_not_le hcount

theorem restartCount_monitor_le (h : inst.restartCount ≤ 5) : (inst.monitor drainMode).restartCount ≤ 5 := by
  obtain ⟨-, heq⟩ | ⟨-, -, heq⟩ | ⟨-, -, hcount, heq⟩ := monitor_cases inst drainMode
  · rwa [heq]
  · rwa [heq]
  · rw [heq]
    exact hcount

theorem Bounded.step (h : Bounded m) : Bounded (step m op) := by
  cases op with
  | add podName =>
    intro inst hinst
    rcases List.mem_append.mp hinst with hold | hnew
    · exact h inst hold
    · rw [List.mem_singleton.mp hnew]
      exact Nat.zero_le 5
  | remove podName => exact fun inst hinst => h inst (List.mem_of_mem_eraseP hinst)
  | setProcess i pid =>
    refine h.modify fun inst hle => ?_
    unfold Instance.setProcess
    split <;> exact hle
  | setState i state => exact h.modify fun _ hle => hle
  | shutdown i =>
    refine h.modify fun inst hle => ?_
    unfold Instance.shutdown
    split <;> exact hle
  | shutdownReturn i =>
    refine h.modify fun inst hle => ?_
    unfold Instance.shutdownReturn
    split <;> exact hle
  | restart i =>
    refine h.modify fun inst hle => ?_
    unfold Instance.restart
    split
    · rename_i hshould
      exact restartCount_lt_of_shouldRestart hshould
    · exact hle
  | death i => exact h.modify fun _ hle => hle
  | enableDrain => exact h
  | disableDrain => exact h
  | monitorPass =>
    intro inst' hinst'
    obtain ⟨inst, hinst, rfl⟩ := List.mem_map.mp hinst'
    exact restartCount_monitor_le (h inst hinst)

/-- **At most five restarts** of an instance, by the monitor and by `instance_restart` together. -/
theorem restarts_bounded {ops : List Op} : AllStates step Bounded Manager.create ops :=
  allStates_of_step (fun _ _ h => h.step) fun _ h => absurd h List.not_mem_nil

/-! ## A pass after a shutdown -/

/-- **A stopped instance is restarted**: the pass after the shutdown finds the process dead, sets the state to
`FAILED` and then asks whether the state forbids a restart. -/
theorem stopped_instance_restarted :
    ¬ ∀ ops, AllSteps step LeftStopped Manager.create ops := by
  intro h
  have hrun := h [.add "web", .setProcess 0 42, .shutdown 0, .death 0, .shutdownReturn 0, .monitorPass]
  have hpass := leftStopped_step_iff.mp hrun.2.2.2.2.2.1
  exact absurd (hpass _ List.mem_cons_self rfl rfl) (by decide)

end Sirah.InstanceLifecycle
