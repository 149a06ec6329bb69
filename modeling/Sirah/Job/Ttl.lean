import Sirah.Job.Job
import Sirah.Lib.Run

/-!
# The time to live of a finished job

`job_should_be_deleted_by_ttl` and `job_get_ttl_seconds_remaining` of `internal/job/job.c` along runs of the calls
that create and report pods. Both count from `status.completion_time`, and take a 0 there for a job that has not
finished ('Job not complete or failed').

* `job_create` sets `completion_time` to 0. No other function of the file writes it: `completionTime_apply`.
* `State.finishedAt` is when `job_is_complete` or `job_is_failed` was true for the first time. The job does not
  remember it, and `job_is_failed` may become false again.

**`ttl_from_finish_iff`**: along a run with a clock that does not go back every answer is right **iff** no job that
has finished is asked about its deletion from the end of its time on, or about the rest of its time at another moment
than that of the finish.
-/

namespace Sirah.Jobs.Ttl

open Runs

/-! ## The job -/

/-- `job_t` with `spec.ttl_seconds_after_finished` and `status.completion_time`. -/
structure TtlJob extends Job where
  ttlSecondsAfterFinished : BitVec 32
  completionTime : Nat
  deriving DecidableEq

/-- `job_create`. -/
def create (ns name : CString) (spec : JobSpec) (ttl : BitVec 32) : Except Int TtlJob :=
  (Jobs.create ns name spec).map fun job =>
    { toJob := job, ttlSecondsAfterFinished := ttl, completionTime := 0 }

/-- `job_should_be_deleted_by_ttl`, at time `now`. -/
def shouldBeDeletedByTtl (job : TtlJob) (now : Nat) : Int :=
  if job.ttlSecondsAfterFinished.toInt ≤ 0 then 0
  else if job.completionTime = 0 then 0
  else if (now : Int) ≥ job.completionTime + job.ttlSecondsAfterFinished.toInt then 1
  else 0

/-- `job_get_ttl_seconds_remaining`, at time `now`. -/
def getTtlSecondsRemaining (job : TtlJob) (now : Nat) : BitVec 32 :=
  if job.ttlSecondsAfterFinished.toInt ≤ 0 then -1
  else if job.completionTime = 0 then job.ttlSecondsAfterFinished
  else
    let remaining := job.ttlSecondsAfterFinished - BitVec.ofInt 32 ((now : Int) - job.completionTime)
    if remaining.toInt < 0 then 0 else remaining

/-- A call on the job. -/
inductive Call where
  | createPod (podIndex : Int)
  | markPodSucceeded (podName : CString)
  | markPodFailed (podName : CString) (retry : Bool)
  | shouldBeDeletedByTtl
  | getTtlSecondsRemaining
  deriving DecidableEq

/-- What a call at time `now` makes of the job. -/
def apply (job : TtlJob) (now : Nat) : Call → TtlJob
  | .createPod podIndex => { job with toJob := (job.toJob.createPod podIndex now).1 }
  | .markPodSucceeded podName => { job with toJob := job.toJob.markPodSucceeded podName }
  | .markPodFailed podName retry => { job with toJob := job.toJob.markPodFailed podName retry }
  | .shouldBeDeletedByTtl => job
  | .getTtlSecondsRemaining => job

/-! ## Runs -/

/-- The job, the time of the last call, and when it finished. -/
structure State where
  job : TtlJob
  clock : Nat
  finishedAt : Option Nat
  deriving DecidableEq

/-- `job_is_complete` or `job_is_failed`. -/
def finished (job : TtlJob) : Bool := job.toJob.isComplete || job.toJob.isFailed

/-- A call with its time. -/
structure Action where
  call : Call
  now : Nat
  deriving DecidableEq

/-- The first time at which the job is finished is kept. -/
def noteFinish (earlier : Option Nat) (job : TtlJob) (now : Nat) : Option Nat :=
  match earlier with
  | some c => some c
  | none => if finished job then some now else none

def step (s : State) (a : Action) : State :=
  let job := apply s.job a.now a.call
  ⟨job, a.now, noteFinish s.finishedAt job a.now⟩

/-- A job that was created at time `now`. -/
def start (job : TtlJob) (now : Nat) : State := ⟨job, now, noteFinish none job now⟩

/-- The clock does not go back. -/
def Ordered (s : State) (a : Action) : Prop := s.clock ≤ a.now

instance (s : State) (a : Action) : Decidable (Ordered s a) := inferInstanceAs (Decidable (_ ≤ _))

/-- **The answer counts from the finish.** -/
def RightAnswer (s : State) (a : Action) : Prop :=
  match a.call with
  | .shouldBeDeletedByTtl => shouldBeDeletedByTtl s.job a.now = 1 ↔
    ∃ c, s.finishedAt = some c ∧ (a.now : Int) ≥ c + s.job.ttlSecondsAfterFinished.toInt
  | .getTtlSecondsRemaining => (getTtlSecondsRemaining s.job a.now).toInt =
    match s.finishedAt with
    | none => s.job.ttlSecondsAfterFinished.toInt
    | some c => max 0 (s.job.ttlSecondsAfterFinished.toInt - ((a.now : Int) - c))
  | _ => True

/-- A question whose answer does not depend on the finish: about the deletion before the end of the time, about the
rest of the time at the moment of the finish, or either of them before. -/
def AskedEarly (s : State) (a : Action) : Prop :=
  match a.call with
  | .shouldBeDeletedByTtl =>
    ∀ c, s.finishedAt = some c → (a.now : Int) < c + s.job.ttlSecondsAfterFinished.toInt
  | .getTtlSecondsRemaining => ∀ c, s.finishedAt = some c → a.now = c
  | _ => True

/-- What holds throughout: no time of completion is recorded, and the finish is not in the future. -/
structure Unrecorded (s : State) : Prop where
  ttl_pos : 0 < s.job.ttlSecondsAfterFinished.toInt
  completionTime : s.job.completionTime = 0
  past : ∀ c, s.finishedAt = some c → c ≤ s.clock

/-! ## One call -/

/-- **No call records the completion**, or changes the time to live. -/
theorem completionTime_apply (job : TtlJob) (now : Nat) (call : Call) :
    (apply job now call).completionTime = job.completionTime ∧
      (apply job now call).ttlSecondsAfterFinished = job.ttlSecondsAfterFinished := by
  cases call <;> exact ⟨rfl, rfl⟩

theorem noteFinish_le {earlier : Option Nat} {clock now : Nat} (hclock : clock ≤ now)
    (hearlier : ∀ c, earlier = some c → c ≤ clock) (job : TtlJob) :
    ∀ c, noteFinish earlier job now = some c → c ≤ now := by
  intro c hc
  unfold noteFinish at hc
  split at hc
  · cases hc
    exact (hearlier c rfl).trans hclock
  · split at hc
    · cases hc
      exact le_refl now
    · cases hc

/-- A call keeps the invariant. -/
theorem unrecorded_step {s : State} {a : Action} (h : Unrecorded s) (ha : Ordered s a) : Unrecorded (step s a) := by
  obtain ⟨hcompletion, httl⟩ := completionTime_apply s.job a.now a.call
  refine ⟨?_, hcompletion.trans h.completionTime, noteFinish_le ha h.past _⟩
  show 0 < (apply s.job a.now a.call).ttlSecondsAfterFinished.toInt
  rw [httl]
  exact h.ttl_pos

/-- **One answer is right**, exactly if it was asked for early. -/
theorem rightAnswer_iff {s : State} {a : Action} (h : Unrecorded s) (ha : Ordered s a) :
    RightAnswer s a ↔ AskedEarly s a := by
  obtain ⟨call, now⟩ := a
  have hpos := h.ttl_pos
  have hdeleted : shouldBeDeletedByTtl s.job now = 0 := by
    rw [shouldBeDeletedByTtl, if_neg (Int.not_le.mpr hpos), if_pos h.completionTime]
  have hremaining : getTtlSecondsRemaining s.job now = s.job.ttlSecondsAfterFinished := by
    rw [getTtlSecondsRemaining, if_neg (Int.not_le.mpr hpos), if_pos h.completionTime]
  cases call with
  | shouldBeDeletedByTtl =>
    show (shouldBeDeletedByTtl s.job now = 1 ↔ _) ↔ ∀ c, _ → _
    rw [hdeleted]
    constructor
    · intro hright c hc
      by_contra hlate
      exact absurd (hright.mpr ⟨c, hc, Int.not_lt.mp hlate⟩) (by decide)
    · intro hearly
      refine iff_of_false (by decide) ?_
      rintro ⟨c, hc, hlate⟩
      exact absurd (hearly c hc) (Int.not_lt.mpr hlate)
  | getTtlSecondsRemaining =>
    show (getTtlSecondsRemaining s.job now).toInt = _ ↔ ∀ c, _ → _
    rw [hremaining]
    cases hfinished : s.finishedAt with
    | none => exact iff_of_true rfl (by simp)
    | some c =>
      have hpast : c ≤ now := (h.past c hfinished).trans ha
      simp only [Option.some.injEq, forall_eq']
      omega
  | _ => exact Iff.rfl

/-! ## Whole runs -/

/-- A job starts unfinished. -/
theorem unrecorded_start {ns name : CString} {spec : JobSpec} {ttl : BitVec 32} {job : TtlJob}
    (hcreate : create ns name spec ttl = .ok job) (hpos : 0 < ttl.toInt) (now : Nat) :
    Unrecorded (start job now) := by
  unfold create at hcreate
  cases hjob : Jobs.create ns name spec with
  | error e =>
    rw [hjob] at hcreate
    cases hcreate
  | ok j =>
    rw [hjob] at hcreate
    cases hcreate
    have hnone : ∀ c, (none : Option Nat) = some c → c ≤ now := by simp
    exact ⟨hpos, rfl, noteFinish_le (le_refl now) hnone _⟩

/-- **The time to live counts from the finish**, along a run from the creation, exactly if every question is asked
early. -/
theorem ttl_from_finish_iff {ns name : CString} {spec : JobSpec} {ttl : BitVec 32} {job : TtlJob}
    (hcreate : create ns name spec ttl = .ok job) (hpos : 0 < ttl.toInt) (created : Nat) {as : List Action}
    (hclock : AllSteps step Ordered (start job created) as) :
    AllSteps step RightAnswer (start job created) as ↔ AllSteps step AskedEarly (start job created) as :=
  allSteps_iff_of_kept (I := Unrecorded) (fun _ _ h ha _ => unrecorded_step h ha)
    (fun _ _ h ha => rightAnswer_iff h ha) (unrecorded_start hcreate hpos created) hclock

/-- One completion, and an hour to live. -/
def oneShot : JobSpec where
  name := ("once" : String)
  ns := ("default" : String)
  completions := 1
  parallelism := 1
  backoffLimit := 6
  suspend := false
  restartPolicy := 0

/-- The job that is created from it. -/
def oneShotJob : TtlJob where
  spec := oneShot
  status := ⟨0, 0, 0, [], 0⟩
  ttlSecondsAfterFinished := 3600
  completionTime := 0

theorem create_oneShot : create ("default" : String) ("once" : String) oneShot 3600 = .ok oneShotJob := by
  decide

/-- Its pod succeeds at time 160, and the job is asked half an hour later. -/
theorem asked_early_right : AllSteps step RightAnswer (start oneShotJob 100)
    [⟨.createPod 0, 100⟩, ⟨.getTtlSecondsRemaining, 130⟩, ⟨.markPodSucceeded [], 160⟩, ⟨.shouldBeDeletedByTtl, 1960⟩] := by
  have hordered : AllSteps step Ordered (start oneShotJob 100) [⟨.createPod 0, 100⟩,
      ⟨.getTtlSecondsRemaining, 130⟩, ⟨.markPodSucceeded [], 160⟩, ⟨.shouldBeDeletedByTtl, 1960⟩] :=
    ⟨by decide, by decide, by decide, by decide, trivial⟩
  refine (ttl_from_finish_iff create_oneShot (by decide) 100 hordered).mpr ⟨trivial, ?_, trivial, ?_, trivial⟩
  · intro c hc
    cases hc
  · intro c hc
    cases hc
    decide

/-- It is asked an hour later, and is not to be deleted. -/
theorem never_expires : ¬ AllSteps step RightAnswer (start oneShotJob 100)
    [⟨.createPod 0, 100⟩, ⟨.markPodSucceeded [], 160⟩, ⟨.shouldBeDeletedByTtl, 3760⟩] := by
  rintro ⟨-, -, h, -⟩
  have hexpired := h.mpr ⟨160, by decide, by decide⟩
  revert hexpired
  decide

end Sirah.Jobs.Ttl
