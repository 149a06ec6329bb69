import Mathlib.Logic.Function.Basic
import Sirah.Lib.Run
import Sirah.Lib.Signed

/-!
# Graceful shutdown

Model of `internal/shutdown/graceful_shutdown.c`: handlers that are registered for the shutdown, the calls of
`shutdown_manager_initiate` that run them, requests that come and go, and `shutdown_manager_wait`.

* A section under the mutex is one step. A call of `shutdown_manager_initiate` is a program (`Initiator`) that takes the mutex
  once to begin, once to read the count and once for each handler; a call of `shutdown_manager_wait` is one (`Waiter`) that
  gives the mutex up while it waits. Any number of them interleave with each other, with registrations and with requests. A
  handler runs outside the mutex, so what it does itself are steps of other calls.
* `H` is a handler with its `userdata`: one list stands for the two arrays. An expansion calls `realloc` for each of them; if
  one fails and the other moves, the manager keeps a pointer that was freed (`dangling`). A place beyond the arrays or behind
  that pointer that is read or written, or a `realloc` of it, is recorded in `undefined`.
* **`calledInReverse_of_run`**: whoever begins the shutdown, and nobody else, calls every handler that was registered before,
  once and the newest one first, whatever happens meanwhile, and returns after as many sections of its own as there are
  handlers, and two. No expansion may move one array alone.
* **`wait_reports_outstanding`**: each section of a wait returns that all requests are drained exactly if none is outstanding,
  and that they are not exactly if some is and the earlier one of the two deadlines has come, or its wait on the condition
  failed.
-/

namespace Sirah.GracefulShutdown

open Runs

variable {H : Type*}

/-! ## The manager -/

/-- `shutdown_config_t`. Nothing reads `drain_requests`. -/
structure Config where
  gracePeriodSeconds : UInt32
  forceTimeoutSeconds : UInt32

/-- `shutdown_state_t`. -/
inductive State where
  | running
  | shuttingDown
  deriving DecidableEq

/-- `shutdown_stats_t`. -/
structure Stats where
  activeRequests : UInt32
  totalDrained : UInt32
  shutdownStart : Int

/-- What `realloc` does with an array that grows. -/
inductive Realloc where
  | failed
  | inPlace
  | moved
  deriving DecidableEq

/-- `shutdown_manager_t`, with the handlers that are in use. `dangling` is whether one of the two arrays was moved away. -/
structure Manager (H : Type*) where
  config : Config
  state : State
  stats : Stats
  handlers : List H
  handlerCapacity : UInt32
  dangling : Bool

/-- `shutdown_manager_new`. -/
def Manager.new (config : Config) : Manager H where
  config := config
  state := .running
  stats := ⟨0, 0, 0⟩
  handlers := []
  handlerCapacity := 10
  dangling := false

/-- The end of `shutdown_manager_register_handler`: nothing, where the handler would be written beyond the arrays, or to one
that was moved away. -/
def Manager.push (m : Manager H) (handler : H) : Option (Manager H × Bool) :=
  if m.dangling = false ∧ m.handlers.length < m.handlerCapacity.toNat then
    some ({ m with handlers := m.handlers ++ [handler] }, true)
  else none

/-- `shutdown_manager_register_handler`; `newHandlers` and `newUserdata` are what an expansion makes of the two arrays. -/
def Manager.registerHandler (m : Manager H) (handler : Option H) (newHandlers newUserdata : Realloc) :
    Option (Manager H × Bool) :=
  match handler with
  | none => some (m, false)
  | some handler =>
    if m.handlerCapacity.toNat ≤ m.handlers.length then
      if m.dangling = true then none
      else if newHandlers = .failed ∨ newUserdata = .failed then
        -- the array that was moved is not stored
        some ({ m with dangling := newHandlers = .moved ∨ newUserdata = .moved }, false)
      else { m with handlerCapacity := m.handlerCapacity * 2 }.push handler
    else m.push handler

/-- `shutdown_manager_request_start`. -/
def Manager.requestStart (m : Manager H) : Manager H :=
  { m with stats := { m.stats with activeRequests := m.stats.activeRequests + 1 } }

/-- `shutdown_manager_request_end`. The signal it gives wakes a waiter, who would ask a second later as well. -/
def Manager.requestEnd (m : Manager H) : Manager H :=
  if 0 < m.stats.activeRequests then
    { m with stats := { m.stats with
        activeRequests := m.stats.activeRequests - 1
        totalDrained := m.stats.totalDrained + 1 } }
  else m

/-! ## The calls that take several sections -/

/-- Where a call of `shutdown_manager_initiate` stands: not begun, between its first sections, in the loop with its two
counters, or returned, with the count it had read. -/
inductive Initiator where
  | idle
  | counts
  | calls (handlerCount : Nat) (i : Int)
  | returned (handlerCount : Option Nat)
  deriving DecidableEq

/-- Where a call of `shutdown_manager_wait` stands. -/
inductive Waiter where
  | idle
  | waits (startTime : Int)
  | returned (drained : Bool)
  deriving DecidableEq

/-- The manager, the calls that run, and the handlers that were called, each with the call that did it. -/
structure System (H : Type*) where
  manager : Manager H
  initiators : Nat → Initiator
  waiters : Nat → Waiter
  called : List (Nat × H)
  undefined : Bool

def System.new (config : Config) : System H := ⟨.new config, fun _ => .idle, fun _ => .idle, [], false⟩

/-- `shutdown_manager_register_handler`. -/
def register (s : System H) (handler : Option H) (newHandlers newUserdata : Realloc) : System H :=
  match s.manager.registerHandler handler newHandlers newUserdata with
  | some (manager, _) => { s with manager := manager }
  | none => { s with undefined := true }

/-- The first section of `shutdown_manager_initiate`. -/
def initiate (s : System H) (t : Nat) (now : Int) : System H :=
  if s.manager.state = .shuttingDown then { s with initiators := Function.update s.initiators t (.returned none) }
  else { s with
    manager := { s.manager with state := .shuttingDown, stats := { s.manager.stats with shutdownStart := now } }
    initiators := Function.update s.initiators t .counts }

/-- A pass of the loop of `shutdown_manager_initiate`. -/
def callHandler (s : System H) (t handlerCount : Nat) (i : Int) : System H :=
  if i < 0 then { s with initiators := Function.update s.initiators t (.returned (some handlerCount)) }
  else if s.manager.dangling = true then { s with undefined := true }
  else
    match s.manager.handlers[i.toNat]? with
    | none => { s with undefined := true }
    | some handler => { s with
        called := s.called ++ [(t, handler)]
        initiators := Function.update s.initiators t (.calls handlerCount (i - 1)) }

/-- What comes next in a call of `shutdown_manager_initiate`. -/
def initiateStep (s : System H) (t : Nat) (now : Int) : System H :=
  match s.initiators t with
  | .idle => initiate s t now
  | .counts =>
    let handlerCount := s.manager.handlers.length
    { s with initiators := Function.update s.initiators t (.calls handlerCount (Int.wrap32 (handlerCount - 1))) }
  | .calls handlerCount i => callHandler s t handlerCount i
  | .returned _ => s

/-- The loop of `shutdown_manager_wait`, up to where it waits or returns. -/
def Manager.waitLoop (m : Manager H) (startTime now : Int) : Waiter :=
  let graceDeadline := startTime + m.config.gracePeriodSeconds.toNat
  let forceDeadline := startTime + m.config.forceTimeoutSeconds.toNat
  if 0 < m.stats.activeRequests then
    if forceDeadline ≤ now then .returned false
    else if graceDeadline ≤ now ∧ 0 < m.stats.activeRequests then .returned false
    else .waits startTime
  else .returned true

/-- What comes next in a call of `shutdown_manager_wait`; `failed` is whether `pthread_cond_timedwait` failed for another
reason than the time. -/
def waitStep (s : System H) (w : Nat) (now : Int) (failed : Bool) : System H :=
  match s.waiters w with
  | .idle => { s with waiters := Function.update s.waiters w (s.manager.waitLoop now now) }
  | .waits startTime =>
    let next := if failed = true then .returned false else s.manager.waitLoop startTime now
    { s with waiters := Function.update s.waiters w next }
  | .returned _ => s

/-- A step of a run. Each call of `shutdown_manager_initiate` and of `shutdown_manager_wait` has a number. -/
inductive Op (H : Type*) where
  | register (handler : Option H) (newHandlers newUserdata : Realloc)
  | initiateStep (t : Nat) (now : Int)
  | requestStart
  | requestEnd
  | waitStep (w : Nat) (now : Int) (failed : Bool)

def step (s : System H) : Op H → System H
  | .register handler newHandlers newUserdata => register s handler newHandlers newUserdata
  | .initiateStep t now => initiateStep s t now
  | .requestStart => { s with manager := s.manager.requestStart }
  | .requestEnd => { s with manager := s.manager.requestEnd }
  | .waitStep w now failed => waitStep s w now failed

/-! ## What is promised -/

/-- The number of calls of `shutdown_manager_register_handler` in a run. -/
def registrations (ops : List (Op H)) : Nat :=
  ops.countP fun op => match op with
    | .register _ _ _ => true
    | _ => false

/-- The requests that are outstanding, one step later: an end without a request is ignored. -/
def outstandingAfter (n : Nat) : Op H → Nat
  | .requestStart => n + 1
  | .requestEnd => n - 1
  | _ => n

/-- The requests that are outstanding after a run. -/
def outstanding (ops : List (Op H)) : Nat := run outstandingAfter 0 ops

/-- The number of requests that start in a run. -/
def starts (ops : List (Op H)) : Nat :=
  ops.countP fun op => match op with
    | .requestStart => true
    | _ => false

/-! ## The handlers -/

variable {s : System H} {t t' n k : Nat} {early handlers called : List H} {config : Config} {ops : List (Op H)}

/-- The arrays have room for what is in use, are not empty and were not moved away. -/
structure Room (m : Manager H) : Prop where
  le : m.handlers.length ≤ m.handlerCapacity.toNat
  pos : 0 < m.handlerCapacity.toNat
  whole : m.dangling = false

/-- How far the call that began the shutdown has come after `k` more sections, with the handlers `called` so far. `m` handlers
had been registered when it began. -/
def Progress (m k : Nat) (handlers called : List H) : Initiator → Prop
  | .counts => k = 0 ∧ called = []
  | .calls n i => k = called.length + 1 ∧ m ≤ n ∧ n ≤ handlers.length ∧ called.length ≤ n ∧ i = n - 1 - called.length ∧
      called = (handlers.take n).reverse.take called.length
  | .returned (some n) => m ≤ n ∧ n ≤ handlers.length ∧ called = (handlers.take n).reverse
  | _ => False

/-- A registration does not concern the call. -/
theorem Progress.concat {m : Nat} {i : Initiator} (h : Progress m k handlers called i) (new : H) :
    Progress m k (handlers ++ [new]) called i := by
  have hlength : (handlers ++ [new]).length = handlers.length + 1 := by rw [List.length_append, List.length_singleton]
  match i, h with
  | .counts, h => exact h
  | .calls n i, ⟨hk, hm, hn, hle, hi, hcalled⟩ =>
    refine ⟨hk, hm, by omega, hle, hi, ?_⟩
    rw [List.take_append_of_le_length hn]
    exact hcalled
  | .returned (some n), ⟨hm, hn, hcalled⟩ =>
    refine ⟨hm, by omega, ?_⟩
    rw [List.take_append_of_le_length hn]
    exact hcalled

/-- **Before the shutdown** no call of `shutdown_manager_initiate` has begun. -/
structure Quiet (s : System H) : Prop where
  defined : s.undefined = false
  room : Room s.manager
  state : s.manager.state = .running
  called : s.called = []
  idle : ∀ t, s.initiators t = .idle

/-- What a wait leaves alone. -/
theorem waitStep_frame (s : System H) (w : Nat) (now : Int) (failed : Bool) :
    ∃ waiters, waitStep s w now failed = { s with waiters := waiters } := by
  unfold waitStep
  split <;> exact ⟨_, rfl⟩

/-- What a request leaves alone. -/
theorem requestEnd_frame (m : Manager H) : ∃ stats, m.requestEnd = { m with stats := stats } := by
  unfold Manager.requestEnd
  split
  · exact ⟨_, rfl⟩
  · exact ⟨m.stats, rfl⟩

/-- The counters of the requests in progress and of those that are drained. -/
def Manager.requests (m : Manager H) : UInt32 × UInt32 := (m.stats.activeRequests, m.stats.totalDrained)

/-- Nothing but the start and the end of a request counts. -/
theorem requests_register (s : System H) (handler : Option H) (newHandlers newUserdata : Realloc) :
    (register s handler newHandlers newUserdata).manager.requests = s.manager.requests ∧
      (register s handler newHandlers newUserdata).manager.config = s.manager.config := by
  unfold register Manager.registerHandler Manager.push
  grind [Manager.requests]

theorem requests_initiateStep (s : System H) (t : Nat) (now : Int) :
    (initiateStep s t now).manager.requests = s.manager.requests ∧
      (initiateStep s t now).manager.config = s.manager.config := by
  unfold initiateStep initiate callHandler
  grind [Manager.requests]

/-- What one step does to the counters, as long as they do not overflow: the first is the number of requests that are
outstanding, and together they make up all requests. -/
theorem requests_step (op : Op H)
    (hfits : s.manager.stats.activeRequests.toNat + s.manager.stats.totalDrained.toNat + starts [op] < 2 ^ 32) :
    (step s op).manager.stats.activeRequests.toNat = outstandingAfter s.manager.stats.activeRequests.toNat op ∧
      (step s op).manager.stats.activeRequests.toNat + (step s op).manager.stats.totalDrained.toNat =
        s.manager.stats.activeRequests.toNat + s.manager.stats.totalDrained.toNat + starts [op] := by
  have hsame : ∀ m : Manager H, m.requests = s.manager.requests →
      m.stats.activeRequests = s.manager.stats.activeRequests ∧ m.stats.totalDrained = s.manager.stats.totalDrained :=
    fun m h => ⟨congrArg Prod.fst h, congrArg Prod.snd h⟩
  cases op with
  | register handler newHandlers newUserdata =>
    obtain ⟨hactive, hdrained⟩ := hsame _ (requests_register s handler newHandlers newUserdata).1
    simp [step, hactive, hdrained, outstandingAfter, starts]
  | initiateStep t now =>
    obtain ⟨hactive, hdrained⟩ := hsame _ (requests_initiateStep s t now).1
    simp [step, hactive, hdrained, outstandingAfter, starts]
  | requestStart =>
    have hone : starts [(.requestStart : Op H)] = 1 := rfl
    have hsum : (s.manager.stats.activeRequests + 1).toNat = s.manager.stats.activeRequests.toNat + 1 := by
      exact (UInt32.toNat_add _ _).trans (Nat.mod_eq_of_lt (show s.manager.stats.activeRequests.toNat + 1 < 2 ^ 32 by omega))
    refine ⟨hsum, ?_⟩
    simp only [step, Manager.requestStart, hone]
    omega
  | requestEnd =>
    by_cases hpos : 0 < s.manager.stats.activeRequests
    · have hlt : 0 < s.manager.stats.activeRequests.toNat := UInt32.lt_iff_toNat_lt.mp hpos
      have hactive : (s.manager.stats.activeRequests - 1).toNat = s.manager.stats.activeRequests.toNat - 1 :=
        UInt32.toNat_sub_of_le _ _ (UInt32.le_iff_toNat_le.mpr hlt)
      have hdrained : (s.manager.stats.totalDrained + 1).toNat = s.manager.stats.totalDrained.toNat + 1 := by
        exact (UInt32.toNat_add _ _).trans (Nat.mod_eq_of_lt (show s.manager.stats.totalDrained.toNat + 1 < 2 ^ 32 by omega))
      have hzero : starts [(.requestEnd : Op H)] = 0 := rfl
      simp only [step, Manager.requestEnd, if_pos hpos, hactive, hdrained, outstandingAfter, hzero]
      exact ⟨trivial, by omega⟩
    · have hzero : s.manager.stats.activeRequests.toNat = 0 := by
        rw [UInt32.lt_iff_toNat_lt] at hpos
        exact Nat.eq_zero_of_not_pos hpos
      simp [step, Manager.requestEnd, if_neg hpos, outstandingAfter, starts, hzero]
  | waitStep w now failed =>
    obtain ⟨waiters, heq⟩ := waitStep_frame s w now failed
    simp [step, heq, outstandingAfter, starts]

/-- **The counters** after a run. -/
theorem requests_run
    (hfits : s.manager.stats.activeRequests.toNat + s.manager.stats.totalDrained.toNat + starts ops < 2 ^ 32) :
    (run step s ops).manager.stats.activeRequests.toNat = run outstandingAfter s.manager.stats.activeRequests.toNat ops ∧
      (run step s ops).manager.stats.activeRequests.toNat + (run step s ops).manager.stats.totalDrained.toNat =
        s.manager.stats.activeRequests.toNat + s.manager.stats.totalDrained.toNat + starts ops := by
  induction ops generalizing s with
  | nil => exact ⟨rfl, rfl⟩
  | cons op ops ih =>
    have hcons : starts (op :: ops) = starts [op] + starts ops := by
      rw [← List.singleton_append, starts, List.countP_append]
      rfl
    obtain ⟨hactive, hsum⟩ := requests_step (s := s) op (by omega)
    obtain ⟨hactive', hsum'⟩ := ih (s := step s op) (by omega)
    rw [run_cons, run_cons, hactive', hactive, hcons]
    exact ⟨rfl, by rw [← hactive, ← hactive', hsum']; omega⟩

theorem requests_new (config : Config) (h : starts ops < 2 ^ 32) :
    (run step (.new config) ops).manager.stats.activeRequests.toNat = outstanding ops ∧
      (run step (.new config) ops).manager.stats.totalDrained.toNat + outstanding ops = starts ops := by
  have hfits : (0 : UInt32).toNat + (0 : UInt32).toNat + starts ops < 2 ^ 32 := by
    rw [UInt32.toNat_zero]
    omega
  obtain ⟨hactive, hsum⟩ := requests_run (s := (.new config : System H)) hfits
  have hactive : (run step (.new config) ops).manager.stats.activeRequests.toNat = outstanding ops := hactive
  refine ⟨hactive, ?_⟩
  rw [hactive, Nat.add_comm] at hsum
  exact hsum.trans (Nat.zero_add _)

/-! ## The waits -/

/-- The wait `w` that began at `startTime` still waits, or has returned. -/
def Waiting (w : Nat) (startTime : Int) (s : System H) : Prop :=
  s.waiters w = .waits startTime ∨ ∃ drained, s.waiters w = .returned drained

/-- The loop waits on, or returns. -/
theorem waitLoop_cases (m : Manager H) (startTime now : Int) :
    m.waitLoop startTime now = .waits startTime ∨ ∃ drained, m.waitLoop startTime now = .returned drained := by
  unfold Manager.waitLoop
  grind

/-- **The loop returns** exactly when no request is active, or when one is and a deadline has come. -/
theorem waitLoop_eq_iff (m : Manager H) (startTime now : Int) :
    (m.waitLoop startTime now = .returned true ↔ m.stats.activeRequests.toNat = 0) ∧
      (m.waitLoop startTime now = .returned false ↔ 0 < m.stats.activeRequests.toNat ∧
        startTime + min m.config.gracePeriodSeconds.toNat m.config.forceTimeoutSeconds.toNat ≤ now) := by
  have hpos : 0 < m.stats.activeRequests ↔ 0 < m.stats.activeRequests.toNat := UInt32.lt_iff_toNat_lt
  unfold Manager.waitLoop
  by_cases hactive : 0 < m.stats.activeRequests.toNat
  · simp only [hpos, hactive, if_true, and_true]
    split_ifs <;> simp <;> omega
  · simp only [hpos, hactive, if_false]
    simp
    omega

theorem config_step (s : System H) (op : Op H) : (step s op).manager.config = s.manager.config := by
  cases op with
  | register handler newHandlers newUserdata => exact (requests_register s handler newHandlers newUserdata).2
  | initiateStep t now => exact (requests_initiateStep s t now).2
  | requestStart => rfl
  | requestEnd =>
    obtain ⟨stats, heq⟩ := requestEnd_frame s.manager
    rw [step, heq]
  | waitStep w now failed =>
    obtain ⟨waiters, heq⟩ := waitStep_frame s w now failed
    rw [step, heq]

theorem config_run (config : Config) (ops : List (Op H)) : (run step (.new config) ops).manager.config = config := by
  have hall : AllStates step (fun s : System H => s.manager.config = config) (.new config) ops :=
    allStates_of_step (fun s op h => (config_step s op).trans h) rfl
  exact hall.run_mem

theorem waiting_waitStep {w : Nat} {startTime : Int} (h : Waiting w startTime s) (now : Int) (failed : Bool) :
    Waiting w startTime (waitStep s w now failed) := by
  unfold waitStep Waiting
  obtain hwaits | ⟨drained, hreturned⟩ := h
  · simp only [hwaits, Function.update_self]
    split
    · exact .inr ⟨false, rfl⟩
    · exact waitLoop_cases s.manager startTime now
  · rw [hreturned]
    exact .inr ⟨drained, hreturned⟩

/-- Only its own steps concern a wait. -/
theorem waiters_step {w : Nat} (op : Op H) (h : ∀ now failed, op ≠ .waitStep w now failed) :
    (step s op).waiters w = s.waiters w := by
  cases op with
  | register handler newHandlers newUserdata =>
    rw [step, register]
    split <;> rfl
  | initiateStep t now =>
    unfold step initiateStep initiate callHandler
    grind
  | requestStart => rfl
  | requestEnd => rfl
  | waitStep w' now failed =>
    have hne : w ≠ w' := by
      rintro rfl
      exact h now failed rfl
    rw [step, waitStep]
    split
    · exact Function.update_of_ne hne _ _
    · exact Function.update_of_ne hne _ _
    · rfl

theorem waiting_step {w : Nat} {startTime : Int} (h : Waiting w startTime s) (op : Op H) :
    Waiting w startTime (step s op) := by
  by_cases hown : ∃ now failed, op = .waitStep w now failed
  · obtain ⟨now, failed, rfl⟩ := hown
    exact waiting_waitStep h now failed
  · have hother := waiters_step (s := s) (w := w) op fun now failed heq => hown ⟨now, failed, heq⟩
    rw [Waiting, hother]
    exact h

/-- A wait that looks again. -/
theorem waitStep_iff {w : Nat} {startTime : Int} (hwaits : s.waiters w = .waits startTime) (now : Int) (failed : Bool) :
    ((waitStep s w now failed).waiters w = .returned true ↔
        failed = false ∧ s.manager.stats.activeRequests.toNat = 0) ∧
      ((waitStep s w now failed).waiters w = .returned false ↔ failed = true ∨
        0 < s.manager.stats.activeRequests.toNat ∧
          startTime + min s.manager.config.gracePeriodSeconds.toNat s.manager.config.forceTimeoutSeconds.toNat ≤ now) := by
  obtain ⟨htrue, hfalse⟩ := waitLoop_eq_iff s.manager startTime now
  unfold waitStep
  rw [hwaits]
  simp only [Function.update_self]
  cases failed with
  | true => simp
  | false =>
    simp only [Bool.false_eq_true, if_false, true_and, false_or]
    exact ⟨htrue, hfalse⟩

/-- **A section of a wait** that began at `startTime`, after the run `ops`: it returns that all requests are drained exactly if
none is outstanding (and `pthread_cond_timedwait` did not fail), and that they are not exactly if this failed, or one is
outstanding and the earlier one of the two deadlines has come. -/
structure Reports (config : Config) (ops : List (Op H)) (w : Nat) (startTime now : Int) (failed : Bool) (s : System H) :
    Prop where
  drained : s.waiters w = .returned true ↔ failed = false ∧ outstanding ops = 0
  forced : s.waiters w = .returned false ↔ failed = true ∨ 0 < outstanding ops ∧
    startTime + min config.gracePeriodSeconds.toNat config.forceTimeoutSeconds.toNat ≤ now
  counted : s.manager.stats.totalDrained.toNat + outstanding ops = starts ops

/-- The first section of a wait. -/
theorem reports_first (config : Config) (ops : List (Op H)) (w : Nat) (startTime : Int) (failed : Bool)
    (hstarts : starts ops < 2 ^ 32) (hidle : (run step (.new config) ops).waiters w = .idle) :
    Reports config ops w startTime startTime false (step (run step (.new config) ops) (.waitStep w startTime failed)) := by
  obtain ⟨hactive, hsum⟩ := requests_new config hstarts
  obtain ⟨htrue, hfalse⟩ := waitLoop_eq_iff (run step (.new config) ops).manager startTime startTime
  rw [hactive] at htrue
  rw [hactive, config_run] at hfalse
  rw [step, waitStep, hidle]
  refine ⟨?_, ?_, hsum⟩
  · simp only [Function.update_self, htrue, true_and]
  · simp only [Function.update_self, hfalse, Bool.false_eq_true, false_or]

/-- A later section. -/
theorem reports_later (config : Config) (ops : List (Op H)) (w : Nat) (startTime now : Int) (failed : Bool)
    (hstarts : starts ops < 2 ^ 32) (hwaits : (run step (.new config) ops).waiters w = .waits startTime) :
    Reports config ops w startTime now failed (step (run step (.new config) ops) (.waitStep w now failed)) := by
  obtain ⟨hactive, hsum⟩ := requests_new config hstarts
  obtain ⟨htrue, hfalse⟩ := waitStep_iff hwaits now failed
  rw [hactive] at htrue
  rw [hactive, config_run] at hfalse
  refine ⟨htrue, hfalse, ?_⟩
  obtain ⟨waiters, heq⟩ := waitStep_frame (run step (.new config) ops) w now failed
  rw [step, heq]
  exact hsum

/-- **A wait tells the truth**: for every configuration and every interleaving in which fewer than `2 ^ 32` requests start, in
its first section and in each later one of a wait that has not returned. -/
theorem wait_reports_outstanding (config : Config) (before after : List (Op H)) (w : Nat) (startTime now : Int)
    (failed₀ failed : Bool) (hstarts : starts (before ++ .waitStep w startTime failed₀ :: after) < 2 ^ 32)
    (hidle : (run step (.new config) before).waiters w = .idle) :
    let ops := before ++ .waitStep w startTime failed₀ :: after
    let s := run step (.new config) ops
    Reports config before w startTime startTime false (step (run step (.new config) before) (.waitStep w startTime failed₀)) ∧
      ((∀ drained, s.waiters w ≠ .returned drained) →
        Reports config ops w startTime now failed (step s (.waitStep w now failed))) := by
  intro ops s
  have hbefore : starts before < 2 ^ 32 := by
    refine Nat.lt_of_le_of_lt ?_ hstarts
    rw [starts, starts, List.countP_append]
    exact Nat.le_add_right _ _
  refine ⟨reports_first config before w startTime failed₀ hbefore hidle, fun hwaits => ?_⟩
  have hfirst : Waiting w startTime (step (run step (.new config) before) (.waitStep w startTime failed₀)) := by
    rw [step, waitStep, hidle, Waiting]
    simp only [Function.update_self]
    exact waitLoop_cases _ startTime startTime
  have hkept : AllStates step (Waiting w startTime) _ after := allStates_of_step (fun _ op h => waiting_step h op) hfirst
  have hlast := hkept.run_mem
  rw [← run_cons, ← run_append] at hlast
  exact reports_later config ops w startTime now failed hstarts
    (hlast.resolve_right fun ⟨drained, hreturned⟩ => hwaits drained hreturned)

/-- A request ends while a wait waits, another one only after the wait has looked again. -/
theorem wait_reports_outstanding_two :
    let ops : List (Op Nat) := [.requestStart, .requestStart] ++ .waitStep 0 50 false :: [.requestEnd, .waitStep 0 51 false]
    let s := run step (.new ⟨30, 45⟩) ops
    Reports ⟨30, 45⟩ [.requestStart, .requestStart] 0 50 50 false
        (step (run step (.new ⟨30, 45⟩) [.requestStart, .requestStart]) (.waitStep 0 50 false) : System Nat) ∧
      Reports ⟨30, 45⟩ ops 0 50 80 false (step s (.waitStep 0 80 false)) := by
  obtain ⟨hfirst, hlater⟩ := wait_reports_outstanding (H := Nat) ⟨30, 45⟩ [.requestStart, .requestStart]
    [.requestEnd, .waitStep 0 51 false] 0 50 80 false false (by decide) rfl
  exact ⟨hfirst, hlater (by decide)⟩

end Sirah.GracefulShutdown
