import Mathlib.Algebra.Group.Int.Defs
import Mathlib.Algebra.GroupWithZero.Nat
import Sirah.Lib.CString
import Sirah.Lib.Signed

/-!
# Jobs

Model of `internal/job/job.c`: a job, the calls that count its pods, and the two rules for how many pods it should
have. A call names the job by its namespace and name; what is modelled is the call on the job that it finds.

* `int32_t` is `BitVec 32`, read with its sign. `time(NULL)` is an argument.
* `podNames` lists at most 1000 pods. The list and the counters are all that a job remembers of its pods: the calls
  that report a pod do not look at its name.
-/

namespace Sirah.Jobs

/-! ## Data -/

/-- `job_spec_t`: the fields that the calls below read. -/
structure JobSpec where
  name : CString
  ns : CString
  completions : BitVec 32
  parallelism : BitVec 32
  backoffLimit : BitVec 32
  suspend : Bool
  restartPolicy : Int
  deriving DecidableEq

/-- `job_status_t`: the counters and the pods. -/
structure JobStatus where
  active : BitVec 32
  succeeded : BitVec 32
  failed : BitVec 32
  podNames : List CString
  failureCount : BitVec 32
  deriving DecidableEq

/-- `job_t`. -/
structure Job where
  spec : JobSpec
  status : JobStatus
  deriving DecidableEq

/-- `job_validate_spec`: the reason why it is refused. -/
def validateSpec (spec : JobSpec) : Option String :=
  if spec.name.length = 0 ∨ spec.name.length > 253 then some "Invalid name: must be 1-253 characters"
  else if spec.completions.toInt ≤ 0 ∨ spec.completions.toInt > 10000 then
    some "Invalid completions: must be 1-10000"
  else if spec.parallelism.toInt ≤ 0 ∨ spec.parallelism.toInt > 1000 then
    some "Invalid parallelism: must be 1-1000"
  else if spec.backoffLimit.toInt < 0 ∨ spec.backoffLimit.toInt > 100 then some "Invalid backoff limit: 0-100"
  else if spec.restartPolicy < 0 ∨ spec.restartPolicy > 2 then some "Invalid restart policy"
  else none

/-- `job_create`. -/
def create (ns name : CString) (spec : JobSpec) : Except Int Job :=
  match validateSpec spec with
  | some _ => .error (-2)
  | none => .ok ⟨{ spec with ns := ns.take 127, name := name.take 255 }, ⟨0, 0, 0, [], 0⟩⟩

/-! ## Pods -/

/-- `job_generate_pod_name`. -/
def generatePodName (jobName : CString) (podIndex now : Nat) : CString :=
  CString.snprintf 256 (jobName ++ CString.ofString "-" ++ CString.ofNat podIndex ++ CString.ofString "-" ++
    CString.ofNat (now % 1000))

namespace Job

/-- `if (active > 0) active--;`. -/
def dropActive (active : BitVec 32) : BitVec 32 := if active.toInt > 0 then active - 1 else active

/-- `job_create_pod`, with the name of the pod. -/
def createPod (job : Job) (podIndex : Int) (now : Nat) : Job × Except Int CString :=
  if podIndex < 0 then (job, .error (-1))
  else
    let podName := generatePodName job.spec.name podIndex.toNat now
    let podNames := job.status.podNames
    ({ job with status := { job.status with
        podNames := if podNames.length < 1000 then podNames ++ [podName] else podNames
        active := job.status.active + 1 } }, .ok podName)

/-- `job_delete_pod`. -/
def deletePod (job : Job) (podName : CString) : Job :=
  { job with status := { job.status with
    podNames := job.status.podNames.erase podName
    active := dropActive job.status.active } }

/-- `job_mark_pod_succeeded`. -/
def markPodSucceeded (job : Job) (_podName : CString) : Job :=
  { job with status := { job.status with
    succeeded := job.status.succeeded + 1
    active := dropActive job.status.active
    failureCount := 0 } }

/-- `job_mark_pod_failed`. -/
def markPodFailed (job : Job) (_podName : CString) (retry : Bool) : Job :=
  { job with status := { job.status with
    failureCount := if retry then job.status.failureCount + 1 else job.status.failureCount
    failed := if retry then job.status.failed else job.status.failed + 1
    active := dropActive job.status.active } }

/-! ## How many pods -/

/-- `job_is_complete`. -/
def isComplete (job : Job) : Bool := decide (job.status.succeeded.toInt ≥ job.spec.completions.toInt)

/-- `job_is_failed`. -/
def isFailed (job : Job) : Bool := decide (job.status.failureCount.toInt > job.spec.backoffLimit.toInt)

/-- `job_is_suspended`. -/
def isSuspended (job : Job) : Bool := job.spec.suspend

/-- `job_suspend`. -/
def suspend (job : Job) : Job := { job with spec := { job.spec with suspend := true } }

/-- `job_resume`. -/
def resume (job : Job) : Job := { job with spec := { job.spec with suspend := false } }

/-- `job_get_remaining_completions`. -/
def remainingCompletions (job : Job) : BitVec 32 :=
  let remaining := job.spec.completions - job.status.succeeded
  if remaining.toInt < 0 then 0 else remaining

/-- `job_get_desired_pod_count`. -/
def desiredPodCount (job : Job) : BitVec 32 :=
  let remaining := job.spec.completions - job.status.succeeded
  let remaining := if remaining.toInt < 0 then 0 else remaining
  if remaining.toInt < job.spec.parallelism.toInt then remaining else job.spec.parallelism

/-- `job_should_create_more_pods`. -/
def shouldCreateMorePods (job : Job) : Bool :=
  if job.spec.suspend || decide (job.status.succeeded.toInt ≥ job.spec.completions.toInt) ||
      decide (job.status.failureCount.toInt > job.spec.backoffLimit.toInt) then false
  else
    let remaining := job.spec.completions - job.status.succeeded
    decide (job.status.podNames.length < job.spec.parallelism.toInt ∧ remaining.toInt > 0)

/-! ## The counters -/

variable {active : BitVec 32}

theorem toInt_dropActive (h : 0 ≤ active.toInt) : (dropActive active).toInt = max 0 (active.toInt - 1) := by
  unfold dropActive
  have hone : (1 : BitVec 32).toInt = 1 := rfl
  split
  · rw [BitVec.toInt_sub_of_le (by rw [hone]; omega) (by rw [hone]; omega), hone]
    omega
  · omega

theorem toInt_succ_eq_iff {c : BitVec 32} (h : 0 ≤ c.toInt) :
    (c + 1).toInt = c.toInt + 1 ↔ c.toInt < 2147483647 := by
  have hone : (1 : BitVec 32).toInt = 1 := rfl
  have hadd := BitVec.toInt_add_eq_iff h (b := 1) (by rw [hone]; omega)
  rw [hone] at hadd
  rw [hadd]
  omega

end Job

end Sirah.Jobs
