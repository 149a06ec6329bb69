import Sirah.Lib.Run
import Sirah.Lib.Sweep
import Sirah.Lib.Window
import Sirah.Rbac.RbacManager

/-!
# The audit log

`rbac_log_audit` and `rbac_clear_old_audit_logs` of `sirah/internal/rbac/rbac_manager.c`: an array of at most 10000
events. A full array loses its oldest event when one is logged, and a clear removes old events by moving down what
follows them, with the place looked at once more.

* `World` adds what was logged, and whether the log was ever cleared.
* **`retained`**: for every sequence of calls and a clock that does not go back, the log is bounded and in the order of
  time, a clear is a filter that counts what it removes, and without clears the log is the last 10000 events.
-/

namespace Sirah.Rbac

open Runs

/-- `rbac_audit_event_t`. -/
structure AuditEvent where
  timestamp : Int
  user : CString
  group : CString
  verb : CString
  apiGroup : CString
  resource : CString
  resourceName : CString
  ns : CString
  decision : Decision
  reason : CString
  sourceIp : CString
  deriving DecidableEq, Repr

/-- `MAX_AUDIT_LOGS`. -/
def maxAuditLogs : Nat := 10000

/-- `rbac_log_audit`. -/
def logAudit (logs : List AuditEvent) (event : AuditEvent) (now : Int) : List AuditEvent × Int :=
  ((if logs.length ≥ maxAuditLogs then logs.tail else logs) ++ [{ event with timestamp := now }], 0)

/-- `rbac_clear_old_audit_logs`. -/
def clearOldAuditLogs (logs : List AuditEvent) (maxAgeSeconds now : Int) : List AuditEvent × Int :=
  if maxAgeSeconds ≤ 0 then (logs, -1)
  else
    let r := logs.sweepUp (fun e => decide (e.timestamp < now - maxAgeSeconds)) logs.length 0
    (r.1, r.2)

/-! ## Runs -/

namespace AuditLog

/-- A call, with the time of it. -/
inductive Op where
  | log (event : AuditEvent) (now : Int)
  | clear (maxAgeSeconds now : Int)

def Op.now : Op → Int
  | .log _ now => now
  | .clear _ now => now

/-- The log, all that was logged, and whether there was a clear. -/
structure World where
  logs : List AuditEvent
  logged : List AuditEvent
  cleared : Bool

/-- Nothing is logged yet. -/
def World.empty : World := ⟨[], [], false⟩

def step (w : World) : Op → World
  | .log event now =>
    { w with logs := (logAudit w.logs event now).1, logged := w.logged ++ [{ event with timestamp := now }] }
  | .clear maxAgeSeconds now => { w with logs := (clearOldAuditLogs w.logs maxAgeSeconds now).1, cleared := true }

/-- **What is retained.** -/
structure Retained (w : World) : Prop where
  atMost : w.logs.length ≤ maxAuditLogs
  chronological : w.logs.Pairwise fun e e' => e.timestamp ≤ e'.timestamp
  /-- A clear removes what is older than the cutoff, keeps the order of the rest, and returns how many it removed. -/
  clear : ∀ maxAgeSeconds now : Int, 0 < maxAgeSeconds →
    clearOldAuditLogs w.logs maxAgeSeconds now =
      (w.logs.filter fun e => decide (now - maxAgeSeconds ≤ e.timestamp),
        ((w.logs.filter fun e => decide (e.timestamp < now - maxAgeSeconds)).length : Int))
  /-- Without clears these are the last events. -/
  last : w.cleared = false → w.logs = w.logged.drop (w.logged.length - maxAuditLogs)

variable {w : World} {logs : List AuditEvent}

/-- **A clear is a filter.** -/
theorem clearOldAuditLogs_eq (logs : List AuditEvent) {maxAgeSeconds : Int} (h : 0 < maxAgeSeconds) (now : Int) :
    clearOldAuditLogs logs maxAgeSeconds now =
      (logs.filter fun e => decide (now - maxAgeSeconds ≤ e.timestamp),
        ((logs.filter fun e => decide (e.timestamp < now - maxAgeSeconds)).length : Int)) := by
  have hkeep : ∀ e : AuditEvent, (!decide (e.timestamp < now - maxAgeSeconds)) =
      decide (now - maxAgeSeconds ≤ e.timestamp) := by
    intro e
    rw [← decide_not, decide_eq_decide]
    exact Int.not_lt
  unfold clearOldAuditLogs
  rw [if_neg (Int.not_le.mpr h), List.sweepUp_length, List.countP_eq_length_filter]
  simp only [hkeep]

/-- The log after a clear is a part of it. -/
theorem clearOldAuditLogs_sublist (logs : List AuditEvent) (maxAgeSeconds now : Int) :
    (clearOldAuditLogs logs maxAgeSeconds now).1.Sublist logs := by
  by_cases h : 0 < maxAgeSeconds
  · rw [clearOldAuditLogs_eq logs h]
    exact List.filter_sublist
  · rw [clearOldAuditLogs, if_pos (Int.not_lt.mp h)]

/-- A full log loses its oldest event. -/
theorem logAudit_eq (h : logs.length ≤ maxAuditLogs) (event : AuditEvent) (now : Int) :
    (logAudit logs event now).1 = logs.drop (logs.length + 1 - maxAuditLogs) ++ [{ event with timestamp := now }] := by
  unfold logAudit
  dsimp only
  split
  · have hone : logs.length + 1 - maxAuditLogs = 1 := by omega
    rw [hone, List.drop_one]
  · have hzero : logs.length + 1 - maxAuditLogs = 0 := by omega
    rw [hzero, List.drop_zero]

/-- No event of the log is behind the time. -/
def Before (w : World) (t : Int) : Prop := ∀ e ∈ w.logs, e.timestamp ≤ t

theorem before_step (op : Op) (t : Int) (h : Before w t) (hop : op.now ≤ t) : Before (step w op) t := by
  cases op with
  | log event now =>
    intro e he
    rcases List.mem_append.mp he with he | he
    · have hmem : e ∈ w.logs := by
        split at he
        · exact List.mem_of_mem_tail he
        · exact he
      exact h e hmem
    · rw [List.mem_singleton.mp he]
      exact hop
  | clear maxAgeSeconds now => exact fun e he => h e ((clearOldAuditLogs_sublist _ _ _).subset he)

theorem retained_log (h : Retained w) (event : AuditEvent) (now : Int) (htime : Before w now) :
    Retained (step w (.log event now)) := by
  have heq := logAudit_eq h.atMost event now
  have hpos : 0 < maxAuditLogs := by decide
  refine ⟨?_, ?_, fun _ _ hage => clearOldAuditLogs_eq _ hage _, fun hclear => ?_⟩
  · simp only [step, heq, List.length_append, List.length_drop, List.length_singleton]
    have := h.atMost
    omega
  · simp only [step, heq]
    refine List.pairwise_append.mpr ⟨h.chronological.sublist (List.drop_sublist _ _), List.pairwise_singleton _ _, ?_⟩
    intro e he e' he'
    rw [List.mem_singleton.mp he']
    exact htime e (List.mem_of_mem_drop he)
  · simp only [step, heq]
    exact List.window_concat hpos (h.last hclear) _

theorem retained_clear (h : Retained w) (maxAgeSeconds now : Int) : Retained (step w (.clear maxAgeSeconds now)) := by
  have hsub := clearOldAuditLogs_sublist w.logs maxAgeSeconds now
  exact ⟨hsub.length_le.trans h.atMost, h.chronological.sublist hsub, fun _ _ hage => clearOldAuditLogs_eq _ hage _,
    fun hclear => Bool.noConfusion hclear⟩

theorem retained_empty : Retained World.empty :=
  ⟨Nat.zero_le _, List.Pairwise.nil, fun _ _ hage => clearOldAuditLogs_eq _ hage _, fun _ => rfl⟩

/-- **The log keeps what it is meant to**, whatever is logged and cleared. -/
theorem retained (ops : List Op) (h : (ops.map Op.now).Pairwise (· ≤ ·)) :
    AllStates step Retained World.empty ops := by
  have htime : AllSteps step (fun w op => Before w op.now) World.empty ops :=
    allSteps_of_ordered (fun _ op t _ hw hop => before_step op t hw hop) h fun _ _ => List.forall_mem_nil _
  refine allStates_of_allSteps (fun w op hw htime => ?_) retained_empty htime
  cases op with
  | log event now => exact retained_log hw event now htime
  | clear maxAgeSeconds now => exact retained_clear hw maxAgeSeconds now

/-- An event, as a caller passes it. -/
def getPods : AuditEvent := ⟨0, "alice", "dev", "get", "", "pods", "web", "default", .allow, "", "10.0.0.1"⟩

theorem retained_old_and_new : AllStates step Retained World.empty [.log getPods 10, .log getPods 100, .clear 60 110] :=
  retained [.log getPods 10, .log getPods 100, .clear 60 110] (by decide)

end AuditLog

end Sirah.Rbac
