import Mathlib.Logic.Function.Basic
import Sirah.Lib.CString
import Sirah.Lib.Run
import Sirah.Lib.SplitFirst

/-!
# The supervision tree

Model of `internal/kubelet/agent_supervision.c`: children with a process each, monitor threads that restart them, and the calls
of `supervision_tree_start`, `supervision_tree_stop` and `supervision_tree_restart_child`.

* A section under a mutex is one step, together with the `fork` before it, and so is a sleep: a monitor thread, a stop and a
  restart of a child are programs (`Monitor`, `Stop`, `Restart`) whose steps interleave with each other and with the exits of
  processes. `supervision_tree_start` is one step.
* Time is what the clock says at each scan. An answer of `fork` is a pid that is not in use, or a failure.
* `StaysStopped`: once a stop of a running tree has returned, no process runs and no child is recorded as running, until
  `supervision_tree_start` or `supervision_tree_restart_child` is called again.
* **`staysStopped_of_undisturbed`**: along every run in which whoever starts a child finds that it does not run, and, where he
  slept before, that the tree was not stopped meanwhile.
* `monitor_starts_after_stop`: a monitor thread that sleeps before a restart does not ask again.
-/

namespace Sirah.SupervisionTree

open Runs

/-! ## Children and processes -/

/-- `supervision_child_type_t`. -/
inductive ChildType where
  | permanent
  | transient
  | temporary
  deriving DecidableEq

/-- How a process ended. -/
inductive ExitStatus where
  | exited (code : UInt8)
  | signaled (sig : Nat)
  deriving DecidableEq

/-- A pid: not in use, of a process that runs, or of one that ended and that nobody waited for. -/
inductive Proc where
  | free
  | alive
  | zombie (status : ExitStatus)
  deriving DecidableEq

/-- `supervision_child_spec_t`. -/
structure Child where
  id : CString
  type : ChildType
  restartCount : Nat
  maxRestarts : Nat
  maxRestartWindowSecs : Int
  currentPid : Int
  lastExitCode : Option ExitStatus
  lastRestartTime : Int
  running : Bool
  deriving DecidableEq

/-- `supervision_child_spec_create`, with the type and the policy that are set afterwards. -/
def Child.create (id : CString) (type : ChildType) (maxRestarts : Nat) (maxRestartWindowSecs : Int) : Child where
  id := id
  type := type
  restartCount := 0
  maxRestarts := maxRestarts
  maxRestartWindowSecs := maxRestartWindowSecs
  currentPid := 0
  lastExitCode := none
  lastRestartTime := 0
  running := false

/-- `fork`: any other answer than a pid that is not in use is a failure. -/
def fork (procs : Int → Proc) (answer : Option Int) : Option Int :=
  answer.filter fun pid => decide (0 < pid ∧ procs pid = .free)

/-- `supervision_tree_start_child`. -/
def Child.start (child : Child) (procs : Int → Proc) (answer : Option Int) : Child × (Int → Proc) × Bool :=
  match fork procs answer with
  | none => (child, procs, false)
  | some pid => ({ child with currentPid := pid, running := true }, Function.update procs pid .alive, true)

/-- `SIGTERM`, five seconds and `SIGKILL`. How the process ended is never read, for nobody waits for it. -/
def terminate (procs : Int → Proc) (pid : Int) : Int → Proc :=
  if procs pid = .alive then Function.update procs pid (.zombie (.signaled 15)) else procs

/-- `supervision_tree_stop_child`. -/
def Child.stop (child : Child) (procs : Int → Proc) : Child × (Int → Proc) :=
  if child.currentPid ≤ 0 ∨ child.running = false then (child, procs)
  else ({ child with running := false, currentPid := -1 }, terminate procs child.currentPid)

/-! ## The scan of a monitor thread -/

/-- `should_restart`. -/
def shouldRestart : ChildType → ExitStatus → Bool
  | .permanent, _ => true
  | .transient, .exited code => code ≠ 0
  | .transient, .signaled _ => true
  | .temporary, _ => false

/-- The loop for the delay, `j` from its end. -/
def backoffLoop : Nat → Nat → Nat
  | 0, delay => delay
  | j + 1, delay => if delay < 32 then backoffLoop j (delay * 2) else delay

/-- What the monitor does with a child whose process ended, with the delay of a restart. -/
def Child.exited (child : Child) (status : ExitStatus) (now : Int) : Child × Option Nat :=
  let restart := shouldRestart child.type status
  let count :=
    if 0 < child.lastRestartTime ∧ child.maxRestartWindowSecs < now - child.lastRestartTime then 0 else child.restartCount
  let child := { child with running := false, lastExitCode := some status, restartCount := count }
  if restart = true ∧ count < child.maxRestarts then
    ({ child with restartCount := count + 1, lastRestartTime := now }, some (backoffLoop count 1))
  else if restart = false then ({ child with restartCount := 0 }, none)
  else (child, none)

/-- What a scan leaves, and the child that it decides to restart, with the delay. -/
structure Scan where
  children : List Child
  procs : Int → Proc
  restart : Option (Nat × Nat)

/-- The loop of `supervision_tree_monitor_thread`, up to the first restart. `waitpid` frees the pid of a process that ended. -/
def scan (now : Int) : List Child → (Int → Proc) → Scan
  | [], procs => ⟨[], procs, none⟩
  | child :: children, procs =>
    if child.running = true ∧ 0 < child.currentPid then
      match procs child.currentPid with
      | .zombie status =>
        let procs := Function.update procs child.currentPid .free
        match child.exited status now with
        | (child, some delay) => ⟨child :: children, procs, some (0, delay)⟩
        | (child, none) =>
          let r := scan now children procs
          ⟨child :: r.children, r.procs, r.restart.map fun (i, delay) => (i + 1, delay)⟩
      | _ =>
        let r := scan now children procs
        ⟨child :: r.children, r.procs, r.restart.map fun (i, delay) => (i + 1, delay)⟩
    else
      let r := scan now children procs
      ⟨child :: r.children, r.procs, r.restart.map fun (i, delay) => (i + 1, delay)⟩

/-! ## The system -/

/-- `supervision_state_t`. -/
inductive TreeState where
  | initializing
  | running
  | stopping
  | stopped
  | crashed
  deriving DecidableEq

/-- `supervision_tree_monitor_thread`: what it does next. -/
inductive Monitor where
  | check
  | scan
  | backoff (i delay : Nat)
  | restart (i : Nat)
  | relock
  | rest
  | done
  deriving DecidableEq

/-- A call of `supervision_tree_stop` behind its first section. -/
inductive Stop where
  | join (monitor : Nat)
  | finish
  | returned
  deriving DecidableEq

/-- A call of `supervision_tree_restart_child` behind its first section. -/
inductive Restart where
  | sleep (i : Nat)
  | start (i : Nat)
  | returned (result : Bool)
  deriving DecidableEq

/-- `supervision_tree_t` with the processes, the threads and the calls. Beside them: the stop that found the tree running, until
`supervision_tree_start` or `supervision_tree_restart_child` is called again. -/
structure System where
  running : Bool
  state : TreeState
  children : List Child
  monitorThread : Nat
  procs : Int → Proc
  monitors : List Monitor
  stops : List Stop
  restarts : List Restart
  stoppedBy : Option Nat

/-- A child to be added: `supervision_tree_add_child` and `supervision_tree_set_child_policy`. -/
structure Spec where
  id : CString
  type : ChildType
  maxRestarts : Nat
  maxRestartWindowSecs : Int

/-- A tree that was created and that children were added to. -/
def created (specs : List Spec) : System where
  running := false
  state := .stopped
  children := specs.map fun spec => .create spec.id spec.type spec.maxRestarts spec.maxRestartWindowSecs
  monitorThread := 0
  procs := fun _ => .free
  monitors := []
  stops := []
  restarts := []
  stoppedBy := none

/-- The loop of `supervision_tree_start`, with the answers of `fork`: it ends at the first failure. -/
def startAll : List Child → List (Option Int) → (Int → Proc) → List Child × (Int → Proc) × Bool
  | [], _, procs => ([], procs, true)
  | child :: children, answers, procs =>
    match child.start procs answers.head?.join with
    | (child, procs, false) => (child :: children, procs, false)
    | (child, procs, true) =>
      let r := startAll children answers.tail procs
      (child :: r.1, r.2)

/-- `supervision_tree_start`. Is the thread created? -/
def treeStart (s : System) (answers : List (Option Int)) (threadCreated : Bool) : System :=
  if s.running = true then s
  else
    match startAll s.children answers s.procs with
    | (children, procs, false) => { s with children, procs }
    | (children, procs, true) =>
      if threadCreated = true then
        { s with
          children, procs
          running := true
          state := .running
          monitorThread := s.monitors.length
          monitors := s.monitors ++ [.check] }
      else { s with children, procs, running := false, state := .stopped }

/-- The loop of `supervision_tree_stop`. -/
def stopAll : List Child → (Int → Proc) → List Child × (Int → Proc)
  | [], procs => ([], procs)
  | child :: children, procs =>
    let r := child.stop procs
    let rest := stopAll children r.2
    (r.1 :: rest.1, rest.2)

/-- The first section of `supervision_tree_stop`. -/
def treeStop (s : System) : System :=
  if s.running = false then { s with stops := s.stops ++ [.returned] }
  else
    let r := stopAll s.children s.procs
    { s with
      running := false
      state := .stopping
      children := r.1
      procs := r.2
      stops := s.stops ++ [.join s.monitorThread]
      stoppedBy := some s.stops.length }

/-- The rest of it: the monitor thread is joined when it has ended. -/
def stopStep (s : System) (k : Nat) : System :=
  match s.stops[k]? with
  | some (.join monitor) =>
    if s.monitors[monitor]? = some .done then { s with stops := s.stops.set k .finish } else s
  | some .finish => { s with state := .stopped, stops := s.stops.set k .returned }
  | _ => s

/-- `supervision_tree_start_child` for the child at a place. -/
def startAt (s : System) (i : Nat) (answer : Option Int) : System × Bool :=
  match s.children[i]? with
  | none => (s, false)
  | some child =>
    let r := child.start s.procs answer
    ({ s with children := s.children.set i r.1, procs := r.2.1 }, r.2.2)

/-- `supervision_tree_stop_child` for the child at a place. -/
def stopAt (s : System) (i : Nat) : System :=
  match s.children[i]? with
  | none => s
  | some child =>
    let r := child.stop s.procs
    { s with children := s.children.set i r.1, procs := r.2 }

/-- The first section of `supervision_tree_restart_child`. -/
def restartChild (s : System) (childId : CString) : System :=
  match s.children.findIdx? fun child => child.id = childId with
  | none => { s with restarts := s.restarts ++ [.returned false] }
  | some i =>
    let s := stopAt s i
    { s with restarts := s.restarts ++ [.sleep i] }

/-- The rest of it: the sleep, and the second section. -/
def restartStep (s : System) (k : Nat) (answer : Option Int) : System :=
  match s.restarts[k]? with
  | some (.sleep i) => { s with restarts := s.restarts.set k (.start i) }
  | some (.start i) =>
    let r := startAt s i answer
    { r.1 with restarts := r.1.restarts.set k (.returned r.2) }
  | _ => s

/-- A step of `supervision_tree_monitor_thread`. -/
def monitorStep (s : System) (k : Nat) (now : Int) (answer : Option Int) : System :=
  match s.monitors[k]? with
  | some .check => { s with monitors := s.monitors.set k (if s.running = true then .scan else .done) }
  | some .scan =>
    let r := scan now s.children s.procs
    let next := match r.restart with
      | some (i, delay) => Monitor.backoff i delay
      | none => .rest
    { s with children := r.children, procs := r.procs, monitors := s.monitors.set k next }
  | some (.backoff i _) => { s with monitors := s.monitors.set k (.restart i) }
  | some (.restart i) =>
    let r := startAt s i answer
    { r.1 with monitors := r.1.monitors.set k .relock }
  | some .relock => { s with monitors := s.monitors.set k .rest }
  | some .rest => { s with monitors := s.monitors.set k .check }
  | _ => s

/-- A process ends. -/
def exit (s : System) (pid : Int) (status : ExitStatus) : System :=
  if s.procs pid = .alive then { s with procs := Function.update s.procs pid (.zombie status) } else s

/-- A call, a step of a thread or of a call that is under way, or the end of a process. -/
inductive Op where
  | start (answers : List (Option Int)) (threadCreated : Bool)
  | stop
  | restart (childId : CString)
  | monitorStep (k : Nat) (now : Int) (answer : Option Int)
  | stopStep (k : Nat)
  | restartStep (k : Nat) (answer : Option Int)
  | exit (pid : Int) (status : ExitStatus)

def step (s : System) : Op → System
  | .start answers threadCreated => { treeStart s answers threadCreated with stoppedBy := none }
  | .stop => treeStop s
  | .restart childId => { restartChild s childId with stoppedBy := none }
  | .monitorStep k now answer => monitorStep s k now answer
  | .stopStep k => stopStep s k
  | .restartStep k answer => restartStep s k answer
  | .exit pid status => exit s pid status

/-! ## Stopped trees -/

/-- No process runs, and no child is recorded as running. -/
def NoneRunning (children : List Child) (procs : Int → Proc) : Prop :=
  (∀ pid, procs pid ≠ .alive) ∧ ∀ child ∈ children, child.running = false

/-- **A stopped supervision tree stays stopped.** -/
def StaysStopped (s : System) : Prop :=
  ∀ k, s.stoppedBy = some k → s.stops[k]? = some .returned → NoneRunning s.children s.procs

/-- The child that a monitor thread starts next. -/
def Monitor.starts : Monitor → Option Nat
  | .restart i => some i
  | _ => none

/-- The child that a restart starts next. -/
def Restart.starts : Restart → Option Nat
  | .start i => some i
  | _ => none

/-- Whoever slept finds that the tree was not stopped meanwhile, and that the child does not run. -/
def Undisturbed.At (s : System) (i : Nat) : Prop :=
  s.stoppedBy = none ∧ ∀ child ∈ s.children[i]?, child.running = false

/-- The condition on a step. -/
def Undisturbed (s : System) : Op → Prop
  | .start _ _ => s.running = false → ∀ child ∈ s.children, child.running = false
  | .monitorStep k _ _ => ∀ i ∈ s.monitors[k]?.bind Monitor.starts, Undisturbed.At s i
  | .restartStep k _ => ∀ i ∈ s.restarts[k]?.bind Restart.starts, Undisturbed.At s i
  | _ => True

instance Undisturbed.At.decidable (s : System) (i : Nat) : Decidable (Undisturbed.At s i) :=
  inferInstanceAs (Decidable (s.stoppedBy = none ∧ ∀ child ∈ s.children[i]?, child.running = false))

instance Undisturbed.decidable (s : System) : ∀ op, Decidable (Undisturbed s op)
  | .start _ _ => inferInstanceAs (Decidable (s.running = false → ∀ child ∈ s.children, child.running = false))
  | .monitorStep k _ _ => inferInstanceAs (Decidable (∀ i ∈ s.monitors[k]?.bind Monitor.starts, Undisturbed.At s i))
  | .restartStep k _ => inferInstanceAs (Decidable (∀ i ∈ s.restarts[k]?.bind Restart.starts, Undisturbed.At s i))
  | .stop | .restart _ | .stopStep _ | .exit _ _ => inferInstanceAs (Decidable True)

/-! ## What is recorded -/

/-- Every process that runs is the recorded one of a child that is recorded as running. -/
structure Tracked (children : List Child) (procs : Int → Proc) : Prop where
  pids : ∀ child ∈ children, child.running = true → 0 < child.currentPid
  recorded : ∀ pid, procs pid = .alive → ∃ child ∈ children, child.running = true ∧ child.currentPid = pid

variable {children : List Child} {procs : Int → Proc} {child : Child} {answer : Option Int} {i : Nat}

theorem NoneRunning.tracked (h : NoneRunning children procs) : Tracked children procs where
  pids child hchild hrunning := absurd hrunning (by simp [h.2 child hchild])
  recorded pid hpid := absurd hpid (h.1 pid)

/-- A family that is tracked and of which no child is recorded as running has no process. -/
theorem Tracked.noneRunning (h : Tracked children procs) (hnone : ∀ child ∈ children, child.running = false) :
    NoneRunning children procs := by
  refine ⟨fun pid hpid => ?_, hnone⟩
  obtain ⟨child, hchild, hrunning, -⟩ := h.recorded pid hpid
  rw [hnone child hchild] at hrunning
  cases hrunning

/-- **A start** takes a pid that is not in use, or changes nothing. -/
theorem start_cases (child : Child) (procs : Int → Proc) (answer : Option Int) :
    child.start procs answer = (child, procs, false) ∨ ∃ pid, 0 < pid ∧ procs pid = .free ∧
      child.start procs answer =
        ({ child with currentPid := pid, running := true }, Function.update procs pid .alive, true) := by
  unfold Child.start
  cases hfork : fork procs answer with
  | none => exact .inl rfl
  | some pid =>
    obtain ⟨-, hpid⟩ := Option.filter_eq_some_iff.mp hfork
    obtain ⟨hpos, hfree⟩ := of_decide_eq_true hpid
    exact .inr ⟨pid, hpos, hfree, rfl⟩

/-- **A stop** of a child ends its process, or there is none. -/
theorem stop_cases (child : Child) (procs : Int → Proc) :
    child.stop procs = (child, procs) ∧ (child.currentPid ≤ 0 ∨ child.running = false) ∨
      child.stop procs = ({ child with running := false, currentPid := -1 }, terminate procs child.currentPid) := by
  unfold Child.stop
  by_cases h : child.currentPid ≤ 0 ∨ child.running = false
  · exact .inl ⟨if_pos h, h⟩
  · exact .inr (if_neg h)

theorem terminate_eq_alive_iff {pid q : Int} : terminate procs pid q = .alive ↔ procs q = .alive ∧ q ≠ pid := by
  unfold terminate
  by_cases halive : procs pid = .alive
  · rw [if_pos halive]
    by_cases hq : q = pid
    · subst hq
      simp
    · simp [hq]
  · rw [if_neg halive]
    exact ⟨fun h => ⟨h, fun hq => halive (hq ▸ h)⟩, And.left⟩

/-! ### One child -/

theorem tracked_set_start (h : Tracked children procs) (hget : children[i]? = some child) (hstopped : child.running = false) :
    Tracked (children.set i (child.start procs answer).1) (child.start procs answer).2.1 := by
  obtain hfail | ⟨pid, hpos, hfree, hstart⟩ := start_cases child procs answer
  · rw [hfail, List.set_getElem?_self hget]
    exact h
  · rw [hstart]
    refine ⟨fun child' hchild' hrunning => ?_, fun q hq => ?_⟩
    · obtain hold | rfl := List.mem_or_eq_of_mem_set hchild'
      · exact h.pids child' hold hrunning
      · exact hpos
    · by_cases hqp : q = pid
      · exact ⟨_, List.mem_set (List.getElem?_eq_some_iff.mp hget).1 _, rfl, hqp.symm⟩
      · dsimp only at hq
        rw [Function.update_of_ne hqp] at hq
        obtain ⟨child', hchild', hrunning, hpid⟩ := h.recorded q hq
        have hne : child' ≠ child := by
          rintro rfl
          simp [hstopped] at hrunning
        exact ⟨child', List.mem_set_of_ne hget hchild' hne, hrunning, hpid⟩

theorem tracked_set_stop (h : Tracked children procs) (hget : children[i]? = some child) :
    Tracked (children.set i (child.stop procs).1) (child.stop procs).2 := by
  obtain ⟨hstop, -⟩ | hstop := stop_cases child procs
  · rw [hstop, List.set_getElem?_self hget]
    exact h
  · rw [hstop]
    refine ⟨fun child' hchild' hrunning => ?_, fun q hq => ?_⟩
    · obtain hold | rfl := List.mem_or_eq_of_mem_set hchild'
      · exact h.pids child' hold hrunning
      · cases hrunning
    · obtain ⟨halive, hne⟩ := terminate_eq_alive_iff.mp hq
      obtain ⟨child', hchild', hrunning, rfl⟩ := h.recorded q halive
      have hchild : child' ≠ child := fun heq => hne (heq ▸ rfl)
      exact ⟨child', List.mem_set_of_ne hget hchild' hchild, hrunning, rfl⟩

theorem noneRunning_set_stop (h : NoneRunning children procs) (hget : children[i]? = some child) :
    NoneRunning (children.set i (child.stop procs).1) (child.stop procs).2 := by
  have hstopped := h.2 child (List.mem_of_getElem? hget)
  have hstop : child.stop procs = (child, procs) := if_pos (.inr hstopped)
  rw [hstop, List.set_getElem?_self hget]
  exact h

/-! ### The scan -/

theorem exited_running (child : Child) (status : ExitStatus) (now : Int) :
    (child.exited status now).1.running = false := by
  unfold Child.exited
  dsimp only
  split_ifs <;> rfl

/-- **The scan at a child**: it stays as it is, or its process has ended and the scan stops here or goes on. -/
theorem scan_cases (now : Int) (child : Child) (children : List Child) (procs : Int → Proc) :
    ((scan now (child :: children) procs).children = child :: (scan now children procs).children ∧
      (scan now (child :: children) procs).procs = (scan now children procs).procs) ∨
    ∃ status child', procs child.currentPid = .zombie status ∧ child'.running = false ∧
      ((scan now (child :: children) procs).children = child' :: children ∧
        (scan now (child :: children) procs).procs = Function.update procs child.currentPid .free ∨
      (scan now (child :: children) procs).children =
          child' :: (scan now children (Function.update procs child.currentPid .free)).children ∧
        (scan now (child :: children) procs).procs =
          (scan now children (Function.update procs child.currentPid .free)).procs) := by
  rw [scan]
  by_cases hrunning : child.running = true ∧ 0 < child.currentPid
  · rw [if_pos hrunning]
    cases hproc : procs child.currentPid with
    | free => exact .inl ⟨rfl, rfl⟩
    | alive => exact .inl ⟨rfl, rfl⟩
    | zombie status =>
      refine .inr ⟨status, (child.exited status now).1, rfl, exited_running child status now, ?_⟩
      dsimp only
      generalize child.exited status now = exited
      obtain ⟨child', restart⟩ := exited
      cases restart with
      | none => exact .inr ⟨rfl, rfl⟩
      | some delay => exact .inl ⟨rfl, rfl⟩
  · rw [if_neg hrunning]
    exact .inl ⟨rfl, rfl⟩

/-- Freeing the pid of a process that ended leaves what runs. -/
theorem update_free_eq_alive_iff {pid q : Int} {status : ExitStatus} (h : procs pid = .zombie status) :
    Function.update procs pid .free q = .alive ↔ procs q = .alive := by
  by_cases hq : q = pid
  · subst hq
    simp [h]
  · rw [Function.update_of_ne hq]

/-- **The scan** leaves the processes that run. -/
theorem scan_alive (now : Int) (children : List Child) (procs : Int → Proc) (pid : Int) :
    (scan now children procs).procs pid = .alive ↔ procs pid = .alive := by
  induction children generalizing procs with
  | nil => exact Iff.rfl
  | cons child children ih =>
    obtain ⟨-, hprocs⟩ | ⟨status, child', hzombie, -, ⟨-, hprocs⟩ | ⟨-, hprocs⟩⟩ := scan_cases now child children procs
    · rw [hprocs, ih]
    · rw [hprocs, update_free_eq_alive_iff hzombie]
    · rw [hprocs, ih, update_free_eq_alive_iff hzombie]

/-- It keeps the record of a process that runs. -/
theorem mem_scan (now : Int) (children : List Child) (procs : Int → Proc) {child : Child} (hmem : child ∈ children)
    (halive : procs child.currentPid = .alive) : child ∈ (scan now children procs).children := by
  induction children generalizing procs with
  | nil => cases hmem
  | cons first children ih =>
    obtain ⟨hchildren, -⟩ | ⟨status, child', hzombie, -, hscan⟩ := scan_cases now first children procs
    · rw [hchildren]
      obtain rfl | hmem := List.mem_cons.mp hmem
      · exact List.mem_cons_self
      · exact List.mem_cons_of_mem _ (ih procs hmem halive)
    · obtain rfl | hmem := List.mem_cons.mp hmem
      · rw [hzombie] at halive
        cases halive
      · obtain ⟨hchildren, -⟩ | ⟨hchildren, -⟩ := hscan
        · rw [hchildren]
          exact List.mem_cons_of_mem _ hmem
        · rw [hchildren]
          exact List.mem_cons_of_mem _ (ih _ hmem ((update_free_eq_alive_iff hzombie).mpr halive))

/-- And it records nothing. -/
theorem mem_of_mem_scan (now : Int) (children : List Child) (procs : Int → Proc) {child : Child}
    (hmem : child ∈ (scan now children procs).children) (hrunning : child.running = true) : child ∈ children := by
  induction children generalizing procs with
  | nil => cases hmem
  | cons first children ih =>
    obtain ⟨hchildren, -⟩ | ⟨status, child', -, hstopped, ⟨hchildren, -⟩ | ⟨hchildren, -⟩⟩ :=
      scan_cases now first children procs
    all_goals
      rw [hchildren] at hmem
      obtain rfl | hmem := List.mem_cons.mp hmem
    · exact List.mem_cons_self
    · exact List.mem_cons_of_mem _ (ih procs hmem)
    · simp [hstopped] at hrunning
    · exact List.mem_cons_of_mem _ hmem
    · simp [hstopped] at hrunning
    · exact List.mem_cons_of_mem _ (ih _ hmem)

theorem tracked_scan (h : Tracked children procs) (now : Int) :
    Tracked (scan now children procs).children (scan now children procs).procs where
  pids child hchild hrunning := h.pids child (mem_of_mem_scan now children procs hchild hrunning) hrunning
  recorded pid hpid := by
    rw [scan_alive] at hpid
    obtain ⟨child, hchild, hrunning, rfl⟩ := h.recorded pid hpid
    exact ⟨child, mem_scan now children procs hchild hpid, hrunning, rfl⟩

theorem noneRunning_scan (h : NoneRunning children procs) (now : Int) :
    NoneRunning (scan now children procs).children (scan now children procs).procs := by
  refine (tracked_scan h.tracked now).noneRunning fun child hchild => ?_
  by_contra hrunning
  rw [Bool.not_eq_false] at hrunning
  have hmem := mem_of_mem_scan now children procs hchild hrunning
  simp [h.2 child hmem] at hrunning

/-! ### All children -/

/-- **All children are stopped**: no child that was recorded stays recorded. -/
theorem running_stopAll (hpids : ∀ child ∈ children, child.running = true → 0 < child.currentPid) :
    ∀ child ∈ (stopAll children procs).1, child.running = false := by
  induction children generalizing procs with
  | nil => exact List.forall_mem_nil _
  | cons child children ih =>
    rw [List.forall_mem_cons] at hpids
    refine List.forall_mem_cons.mpr ⟨?_, ih hpids.2⟩
    obtain ⟨hstop, hnone⟩ | hstop := stop_cases child procs
    · rw [hstop]
      obtain hpid | hstopped := hnone
      · by_contra hrunning
        have hpos := hpids.1 (by simpa using hrunning)
        omega
      · exact hstopped
    · rw [hstop]

/-- And what still runs is the process of none of them. -/
theorem stopAll_alive {pid : Int} (h : (stopAll children procs).2 pid = .alive) :
    procs pid = .alive ∧ ∀ child ∈ children, child.running = true → 0 < child.currentPid → child.currentPid ≠ pid := by
  induction children generalizing procs with
  | nil => exact ⟨h, List.forall_mem_nil _⟩
  | cons child children ih =>
    obtain ⟨halive, hothers⟩ := ih h
    rw [List.forall_mem_cons]
    obtain ⟨hstop, hnone⟩ | hstop := stop_cases child procs
    · rw [hstop] at halive
      refine ⟨halive, fun hrunning hpos => ?_, hothers⟩
      obtain hpid | hstopped := hnone
      · omega
      · simp [hstopped] at hrunning
    · rw [hstop] at halive
      obtain ⟨halive, hne⟩ := terminate_eq_alive_iff.mp halive
      exact ⟨halive, fun _ _ => hne.symm, hothers⟩

/-- **The section of a stop** leaves no process and no record. -/
theorem noneRunning_stopAll (h : Tracked children procs) :
    NoneRunning (stopAll children procs).1 (stopAll children procs).2 := by
  refine ⟨fun pid hpid => ?_, running_stopAll h.pids⟩
  obtain ⟨halive, hothers⟩ := stopAll_alive hpid
  obtain ⟨child, hchild, hrunning, heq⟩ := h.recorded pid halive
  exact hothers child hchild hrunning (h.pids child hchild hrunning) heq

/-- **A start of all children**: what runs ran before, or is recorded. -/
theorem startAll_spec (answers : List (Option Int)) (procs : Int → Proc)
    (hstopped : ∀ child ∈ children, child.running = false) :
    (∀ child ∈ (startAll children answers procs).1, child.running = true → 0 < child.currentPid) ∧
      ∀ pid, (startAll children answers procs).2.1 pid = .alive → procs pid = .alive ∨
        ∃ child ∈ (startAll children answers procs).1, child.running = true ∧ child.currentPid = pid := by
  induction children generalizing answers procs with
  | nil => exact ⟨List.forall_mem_nil _, fun pid hpid => .inl hpid⟩
  | cons child children ih =>
    rw [List.forall_mem_cons] at hstopped
    obtain hfail | ⟨pid, hpos, -, hstart⟩ := start_cases child procs answers.head?.join
    · have heq : startAll (child :: children) answers procs = (child :: children, procs, false) := by
        rw [startAll, hfail]
      rw [heq]
      refine ⟨fun child' hchild' hrunning => ?_, fun q hq => .inl hq⟩
      obtain rfl | hchild' := List.mem_cons.mp hchild'
      · simp [hstopped.1] at hrunning
      · simp [hstopped.2 child' hchild'] at hrunning
    · obtain ⟨hpids, halive⟩ := ih answers.tail (Function.update procs pid .alive) hstopped.2
      have heq : startAll (child :: children) answers procs =
          ({ child with currentPid := pid, running := true } ::
              (startAll children answers.tail (Function.update procs pid .alive)).1,
            (startAll children answers.tail (Function.update procs pid .alive)).2) := by
        rw [startAll, hstart]
      rw [heq]
      refine ⟨List.forall_mem_cons.mpr ⟨fun _ => hpos, hpids⟩, fun q hq => ?_⟩
      obtain hold | ⟨child', hchild', hrunning, hpid⟩ := halive q hq
      · by_cases hqp : q = pid
        · exact .inr ⟨_, List.mem_cons_self, rfl, hqp.symm⟩
        · rw [Function.update_of_ne hqp] at hold
          exact .inl hold
      · exact .inr ⟨child', List.mem_cons_of_mem _ hchild', hrunning, hpid⟩

theorem tracked_startAll (h : Tracked children procs) (answers : List (Option Int))
    (hstopped : ∀ child ∈ children, child.running = false) :
    Tracked (startAll children answers procs).1 (startAll children answers procs).2.1 := by
  obtain ⟨hpids, halive⟩ := startAll_spec answers procs hstopped
  exact ⟨hpids, fun pid hpid => (halive pid hpid).resolve_left ((h.noneRunning hstopped).1 pid)⟩

/-! ## Steps -/

/-- **The invariant**: no process is lost, and a tree that was stopped does not run and has nothing that runs. -/
structure Inv (s : System) : Prop where
  tracked : Tracked s.children s.procs
  stopped : s.stoppedBy ≠ none → s.running = false ∧ NoneRunning s.children s.procs

variable {s : System} {k : Nat}

theorem inv_startAt (h : Inv s) (hat : Undisturbed.At s i) (answer : Option Int) : Inv (startAt s i answer).1 := by
  unfold startAt
  cases hget : s.children[i]? with
  | none => exact h
  | some child => exact ⟨tracked_set_start h.tracked hget (hat.2 child hget), fun hne => absurd hat.1 hne⟩

theorem inv_stopAt (h : Inv s) (i : Nat) : Inv (stopAt s i) := by
  unfold stopAt
  cases hget : s.children[i]? with
  | none => exact h
  | some child => exact ⟨tracked_set_stop h.tracked hget, fun hne =>
    ⟨(h.stopped hne).1, noneRunning_set_stop (h.stopped hne).2 hget⟩⟩

/-- **A start of the tree**. -/
theorem tracked_treeStart (h : Inv s) (answers : List (Option Int)) (threadCreated : Bool)
    (hcond : s.running = false → ∀ child ∈ s.children, child.running = false) :
    Tracked (treeStart s answers threadCreated).children (treeStart s answers threadCreated).procs := by
  unfold treeStart
  by_cases hrunning : s.running = true
  · rw [if_pos hrunning]
    exact h.tracked
  · rw [if_neg hrunning]
    have htracked := tracked_startAll h.tracked answers (hcond (by simpa using hrunning))
    generalize startAll s.children answers s.procs = started at htracked
    obtain ⟨children, procs, ok⟩ := started
    cases ok with
    | false => exact htracked
    | true =>
      dsimp only
      split_ifs <;> exact htracked

/-- **A stop of the tree**. -/
theorem inv_treeStop (h : Inv s) : Inv (treeStop s) := by
  unfold treeStop
  by_cases hrunning : s.running = false
  · rw [if_pos hrunning]
    exact ⟨h.tracked, h.stopped⟩
  · rw [if_neg hrunning]
    have hnone := noneRunning_stopAll h.tracked
    exact ⟨hnone.tracked, fun _ => ⟨rfl, hnone⟩⟩

theorem inv_stopStep (h : Inv s) (k : Nat) : Inv (stopStep s k) := by
  unfold stopStep
  split
  · split
    · exact ⟨h.tracked, h.stopped⟩
    · exact h
  · exact ⟨h.tracked, h.stopped⟩
  · exact h

theorem tracked_restartChild (h : Inv s) (childId : CString) :
    Tracked (restartChild s childId).children (restartChild s childId).procs := by
  unfold restartChild
  split
  · exact h.tracked
  next i _ => exact (inv_stopAt h i).tracked

theorem inv_restartStep (h : Inv s) (answer : Option Int) (hcond : Undisturbed s (.restartStep k answer)) :
    Inv (restartStep s k answer) := by
  unfold restartStep
  split
  · exact ⟨h.tracked, h.stopped⟩
  next i hstart =>
    have hinv := inv_startAt h (hcond i (by simp [hstart, Restart.starts])) answer
    exact ⟨hinv.tracked, hinv.stopped⟩
  · exact h

theorem inv_monitorStep (h : Inv s) (now : Int) (answer : Option Int) (hcond : Undisturbed s (.monitorStep k now answer)) :
    Inv (monitorStep s k now answer) := by
  unfold monitorStep
  split
  · exact ⟨h.tracked, h.stopped⟩
  · exact ⟨tracked_scan h.tracked now, fun hne => ⟨(h.stopped hne).1, noneRunning_scan (h.stopped hne).2 now⟩⟩
  · exact ⟨h.tracked, h.stopped⟩
  next i hrestart =>
    have hinv := inv_startAt h (hcond i (by simp [hrestart, Monitor.starts])) answer
    exact ⟨hinv.tracked, hinv.stopped⟩
  · exact ⟨h.tracked, h.stopped⟩
  · exact ⟨h.tracked, h.stopped⟩
  · exact h

/-- The end of a process is the start of none. -/
theorem exit_alive {pid q : Int} {status : ExitStatus} (h : (exit s pid status).procs q = .alive) : s.procs q = .alive := by
  unfold exit at h
  split at h
  · by_cases hq : q = pid
    · simp [hq] at h
    · simpa [Function.update_of_ne hq] using h
  · exact h

theorem inv_exit (h : Inv s) (pid : Int) (status : ExitStatus) : Inv (exit s pid status) := by
  have hframe : (exit s pid status).children = s.children ∧ (exit s pid status).stoppedBy = s.stoppedBy ∧
      (exit s pid status).running = s.running := by
    unfold exit
    split <;> exact ⟨rfl, rfl, rfl⟩
  obtain ⟨hchildren, hstopped, hrunning⟩ := hframe
  refine ⟨⟨?_, fun q hq => ?_⟩, fun hne => ?_⟩
  · rw [hchildren]
    exact h.tracked.pids
  · rw [hchildren]
    exact h.tracked.recorded q (exit_alive hq)
  · obtain ⟨hidle, hnone⟩ := h.stopped (hstopped ▸ hne)
    rw [hrunning, hchildren]
    exact ⟨hidle, fun q hq => hnone.1 q (exit_alive hq), hnone.2⟩

/-- **A step** under the condition keeps the invariant. -/
theorem inv_step (op : Op) (h : Inv s) (hcond : Undisturbed s op) : Inv (step s op) := by
  cases op with
  | start answers threadCreated => exact ⟨tracked_treeStart h answers threadCreated hcond, fun hne => absurd rfl hne⟩
  | stop => exact inv_treeStop h
  | restart childId => exact ⟨tracked_restartChild h childId, fun hne => absurd rfl hne⟩
  | monitorStep k now answer => exact inv_monitorStep h now answer hcond
  | stopStep k => exact inv_stopStep h k
  | restartStep k answer => exact inv_restartStep h answer hcond
  | exit pid status => exact inv_exit h pid status

theorem inv_created (specs : List Spec) : Inv (created specs) := by
  have hnone : NoneRunning (created specs).children (created specs).procs := by
    refine ⟨fun pid => Proc.noConfusion, fun child hchild => ?_⟩
    obtain ⟨spec, -, rfl⟩ := List.mem_map.mp hchild
    rfl
  exact ⟨hnone.tracked, fun _ => ⟨rfl, hnone⟩⟩

/-- **To ask again suffices**: a tree that runs was not stopped meanwhile. -/
theorem undisturbed_at_of_running (h : Inv s) (hrunning : s.running = true)
    (hchild : ∀ child ∈ s.children[i]?, child.running = false) : Undisturbed.At s i := by
  refine ⟨?_, hchild⟩
  by_contra hne
  simp [(h.stopped hne).1] at hrunning

/-! ## Runs -/

/-- **A stopped supervision tree stays stopped**, for all children and every interleaving of calls, of the steps of threads and
calls, and of exits: no process runs and no child is recorded as running after a stop of a running tree has returned and until
`supervision_tree_start` or `supervision_tree_restart_child` is called again, if whoever starts a child finds that it does not
run and, where he slept before, that the tree was not stopped meanwhile. -/
theorem staysStopped_of_undisturbed (specs : List Spec) (ops : List Op) (h : AllSteps step Undisturbed (created specs) ops) :
    AllStates step StaysStopped (created specs) ops := by
  have hinv : AllStates step Inv (created specs) ops :=
    allStates_of_allSteps (fun _ op hinv hcond => inv_step op hinv hcond) (inv_created specs) h
  exact hinv.imp fun s hinv k hstopped _ => (hinv.stopped (by simp [hstopped])).2

/-- A child that is always restarted. -/
def worker : Spec := ⟨"worker", .permanent, 3, 60⟩

/-- The tree is started, its process ends, the monitor restarts the child, and the tree is stopped. -/
def restartThenStop : List Op :=
  [.start [some 100] true, .exit 100 (.exited 0), .monitorStep 0 1000 none, .monitorStep 0 1000 none,
    .monitorStep 0 1001 none, .monitorStep 0 1001 (some 101), .monitorStep 0 1001 none, .stop,
    .monitorStep 0 1006 none, .monitorStep 0 1006 none, .stopStep 0, .stopStep 0]

theorem staysStopped_of_undisturbed_restart : AllStates step StaysStopped (created [worker]) restartThenStop := by
  exact staysStopped_of_undisturbed [worker] restartThenStop (by decide)

/-- The same, but the tree is stopped while the monitor thread sleeps before the restart. -/
def stopThenRestart : List Op :=
  [.start [some 100] true, .exit 100 (.exited 0), .monitorStep 0 1000 none, .monitorStep 0 1000 none, .stop,
    .monitorStep 0 1001 none, .monitorStep 0 1001 (some 101), .monitorStep 0 1001 none,
    .monitorStep 0 1006 none, .monitorStep 0 1006 none, .stopStep 0, .stopStep 0]

/-- **A monitor thread starts a child of a stopped tree**: it does not ask after its sleep, and the stop did not find a child
that runs. -/
theorem monitor_starts_after_stop : ¬ AllStates step StaysStopped (created [worker]) stopThenRestart := by
  intro h
  have hlast := h.run_mem 0 (by decide) (by decide)
  exact hlast.1 101 (by decide)

end Sirah.SupervisionTree
