import Sirah.Lib.Json
import Sirah.Lib.KeyedTable
import Sirah.Lib.Run
import Sirah.Lib.Signed

/-!
# The job controller of the API server

Model of `job_reconcile` in `internal/apiserver/controllers.c`, over the pods of the job that the API server holds. Every
call succeeds: a LIST returns the pods of the job, and a POST creates the named pod, which is Pending, in the place of one
that has its name.

* Between two passes the phases of the pods move forward, one pod at a time.
* `WithinLimits`: the pods that are not terminated are at most `parallelism`, and with those that succeeded at most
  `completions`. `RespectsBackoff`: a pass creates no pod once more than `backoffLimit` have failed.
* `Keeps`: a pass of a job with a template that finds too few Running and Succeeded pods finds no Pending one, at most
  `backoffLimit` Failed ones, and `parallelism` left to complete.
* **`limits_kept`**: the limits hold along every run whose passes all meet the condition, and, where each pass posts new
  names, **only** there.
* `pending_not_counted`: two passes create twice as many pods.
-/

namespace Sirah.JobController

open Runs

/-! ## Data -/

/-- `status.phase`. -/
inductive Phase where
  | pending
  | running
  | succeeded
  | failed
  deriving DecidableEq

structure Pod where
  name : CString
  phase : Phase
  deriving DecidableEq

def Pod.isRunning (pod : Pod) : Bool := pod.phase = .running

def Pod.isSucceeded (pod : Pod) : Bool := pod.phase = .succeeded

def Pod.isFailed (pod : Pod) : Bool := pod.phase = .failed

/-- What the pass patches into the status of the job. -/
structure JobStatus where
  active : Nat
  succeeded : Nat
  failed : Nat
  completionTime : Option CString
  deriving DecidableEq

/-! ## The job -/

/-- A number of the spec, or its default. -/
def specInt (spec : Json) (field : CString) (default : Int) : Int :=
  match spec.get field with
  | .null => default
  | value => value.getInt

def parallelism (job : Json) : Int := specInt (job.get "spec") "parallelism" 1

def completions (job : Json) : Int := specInt (job.get "spec") "completions" 1

def backoffLimit (job : Json) : Int := specInt (job.get "spec") "backoffLimit" 6

/-! ## A pass -/

/-- `pod_name[256]`, with the time that the pass reads for the pod. -/
def podName (name : CString) (time : Int) (i : Nat) : CString :=
  CString.snprintf 256 (name ++ 45 :: CString.ofInt (time.wrap32 + i).wrap32)

/-- The condition under which `job_reconcile` creates pods. -/
def createsPods (job : Json) (pods : List Pod) : Bool :=
  match (job.get "spec").get "template" with
  | .null => false
  | _ => decide ((pods.countP Pod.isRunning : Int) < parallelism job) &&
      decide ((pods.countP Pod.isSucceeded : Int) < completions job)

/-- The names of `n` new pods. -/
def newNames (name : CString) (clock : Nat → Int) (n : Int) : List CString :=
  (List.range n.toNat).map fun i => podName name (clock i) i

/-- The pods that `job_reconcile` posts. -/
def posts (name : CString) (job : Json) (clock : Nat → Int) (pods : List Pod) : List Pod :=
  if createsPods job pods then
    (newNames name clock (parallelism job - pods.countP Pod.isRunning)).map (⟨·, .pending⟩)
  else []

/-- The status that `job_reconcile` patches. -/
def jobStatus (job : Json) (pods : List Pod) : JobStatus where
  active := pods.countP Pod.isRunning
  succeeded := pods.countP Pod.isSucceeded
  failed := pods.countP Pod.isFailed
  completionTime := if (pods.countP Pod.isSucceeded : Int) ≥ completions job then some "2026-02-02T00:00:00Z" else none

/-- `job_reconcile`: the pods afterwards, and the status it patches. It fails without a spec. -/
def jobReconcile (name : CString) (job : Json) (clock : Nat → Int) (pods : List Pod) : List Pod × Option JobStatus :=
  match job.get "spec" with
  | .null => (pods, none)
  | _ => ((posts name job clock pods).foldl (fun pods pod => pods.put Pod.name pod) pods, some (jobStatus job pods))

/-! ## Runs -/

/-- A phase moves forward. -/
def Phase.next : Phase → Phase → Bool
  | .pending, .running => true
  | .running, .succeeded => true
  | .running, .failed => true
  | _, _ => false

/-- A pass, with the times it reads, or a change of the phase of a pod. -/
inductive Op where
  | reconcile (clock : Nat → Int)
  | advance (name : CString) (phase : Phase)

/-- The pod's phase moves to `phase` if it is the named one. -/
def Pod.advance (n : CString) (phase : Phase) (pod : Pod) : Pod :=
  if pod.name = n ∧ pod.phase.next phase then { pod with phase } else pod

section

variable (name : CString) (job : Json)

def step (pods : List Pod) : Op → List Pod
  | .reconcile clock => (jobReconcile name job clock pods).1
  | .advance n phase => pods.map (Pod.advance n phase)

/-- Pending or Running. -/
def Pod.isLive (pod : Pod) : Bool := pod.phase = .pending ∨ pod.phase = .running

/-- Not failed. -/
def Pod.isLiveOrSucceeded (pod : Pod) : Bool := pod.isLive || pod.isSucceeded

/-- **The limits of the job.** -/
structure WithinLimits (pods : List Pod) : Prop where
  parallelism : pods.countP Pod.isLive ≤ (parallelism job).toNat
  completions : pods.countP Pod.isLiveOrSucceeded ≤ (completions job).toNat

/-- **No pod is created** once too many have failed. -/
def RespectsBackoff (pods : List Pod) : Op → Prop
  | .reconcile clock => (pods.countP Pod.isFailed : Int) > backoffLimit job → posts name job clock pods = []
  | .advance _ _ => True

/-- A template, and fewer pods that run and that succeeded than the job wants. -/
structure Lacks (pods : List Pod) : Prop where
  template : (job.get "spec").get "template" ≠ .null
  running : (pods.countP Pod.isRunning : Int) < parallelism job
  succeeded : (pods.countP Pod.isSucceeded : Int) < completions job

/-- The condition on a pass, on the pods that it finds. -/
def Keeps (pods : List Pod) : Op → Prop
  | .reconcile _ => Lacks job pods → (∀ pod ∈ pods, pod.phase ≠ .pending) ∧
      (pods.countP Pod.isFailed : Int) ≤ backoffLimit job ∧
        parallelism job + pods.countP Pod.isSucceeded ≤ completions job
  | .advance _ _ => True

end

variable {name : CString} {job : Json} {pods : List Pod}

/-! ## A pass -/

/-- Without a spec there is no template, and nothing is posted. -/
theorem jobReconcile_pods (clock : Nat → Int) : (jobReconcile name job clock pods).1 =
    (posts name job clock pods).foldl (fun pods pod => pods.put Pod.name pod) pods := by
  unfold jobReconcile
  split
  · rename_i hspec
    have hnone : createsPods job pods = false := by
      unfold createsPods
      rw [hspec]
      rfl
    rw [posts, hnone]
    rfl
  · rfl

/-- **When pods are created.** -/
theorem createsPods_iff : createsPods job pods = true ↔ Lacks job pods := by
  unfold createsPods
  split
  · rename_i hnone
    exact iff_of_false Bool.false_ne_true fun h => h.template hnone
  · rename_i hsome
    rw [Bool.and_eq_true, decide_eq_true_eq, decide_eq_true_eq]
    exact ⟨fun h => ⟨hsome, h.1, h.2⟩, fun h => ⟨h.running, h.succeeded⟩⟩

theorem posts_of_not_lacks (h : ¬ Lacks job pods) (clock : Nat → Int) : posts name job clock pods = [] :=
  if_neg fun hcreates => h (createsPods_iff.mp hcreates)

/-- The new pods are Pending. -/
theorem phase_of_mem_posts {clock : Nat → Int} {pod : Pod} (h : pod ∈ posts name job clock pods) : pod.phase = .pending := by
  unfold posts at h
  split at h
  · obtain ⟨n, -, rfl⟩ := List.mem_map.mp h
    rfl
  · cases h

/-- The new pods are as many as run too few. -/
theorem length_posts (name : CString) (h : Lacks job pods) (clock : Nat → Int) :
    ((posts name job clock pods).length : Int) = parallelism job - pods.countP Pod.isRunning := by
  have hrunning := h.running
  rw [posts, if_pos (createsPods_iff.mpr h), List.length_map, newNames, List.length_map, List.length_range]
  omega

/-- What a pass leaves counts at most the new pods in addition. -/
theorem countP_jobReconcile_le (hnames : (pods.map Pod.name).Nodup) (clock : Nat → Int) {p : Pod → Bool}
    (hp : ∀ pod : Pod, pod.phase = .pending → p pod = true) :
    (jobReconcile name job clock pods).1.countP p ≤ pods.countP p + (posts name job clock pods).length := by
  rw [jobReconcile_pods]
  exact List.countP_foldl_put_le hnames fun pod hpod => hp pod (phase_of_mem_posts hpod)

theorem countP_isLive (pods : List Pod) :
    pods.countP Pod.isLive = pods.countP (·.phase = .pending) + pods.countP Pod.isRunning := by
  induction pods with
  | nil => rfl
  | cons pod pods ih =>
    obtain ⟨n, phase⟩ := pod
    cases phase <;> simp_all [Pod.isLive, Pod.isRunning] <;> omega

theorem countP_isLiveOrSucceeded (pods : List Pod) :
    pods.countP Pod.isLiveOrSucceeded = pods.countP Pod.isLive + pods.countP Pod.isSucceeded := by
  induction pods with
  | nil => rfl
  | cons pod pods ih =>
    obtain ⟨n, phase⟩ := pod
    cases phase <;> simp_all [Pod.isLiveOrSucceeded, Pod.isLive, Pod.isSucceeded] <;> omega

theorem isLive_of_pending (pod : Pod) (h : pod.phase = .pending) : pod.isLive = true := by simp [Pod.isLive, h]

theorem isLiveOrSucceeded_of_pending (pod : Pod) (h : pod.phase = .pending) : pod.isLiveOrSucceeded = true := by
  simp [Pod.isLiveOrSucceeded, isLive_of_pending pod h]

theorem countP_pending : pods.countP (·.phase = .pending) = 0 ↔ ∀ pod ∈ pods, pod.phase ≠ .pending := by
  simp [List.countP_eq_zero]

/-- A pass that creates nothing leaves the pods. -/
theorem step_of_not_lacks (h : ¬ Lacks job pods) (clock : Nat → Int) : step name job pods (.reconcile clock) = pods := by
  rw [step, jobReconcile_pods, posts_of_not_lacks h]
  rfl

/-- **A pass keeps the limits** if it meets the condition. -/
theorem Keeps.reconcile (hnames : (pods.map Pod.name).Nodup) (hlimits : WithinLimits job pods) {clock : Nat → Int}
    (h : Keeps job pods (.reconcile clock)) :
    WithinLimits job (step name job pods (.reconcile clock)) ∧ RespectsBackoff name job pods (.reconcile clock) := by
  by_cases hlacks : Lacks job pods
  · obtain ⟨hpending, hfailed, hleft⟩ := h hlacks
    have hnone := countP_pending.mpr hpending
    have hnew := length_posts name hlacks clock
    have hrunning := hlacks.running
    have hlive : (jobReconcile name job clock pods).1.countP Pod.isLive ≤ _ :=
      countP_jobReconcile_le hnames clock isLive_of_pending
    have hall : (jobReconcile name job clock pods).1.countP Pod.isLiveOrSucceeded ≤ _ :=
      countP_jobReconcile_le hnames clock isLiveOrSucceeded_of_pending
    rw [countP_isLive pods] at hlive
    rw [countP_isLiveOrSucceeded pods, countP_isLive] at hall
    refine ⟨⟨?_, ?_⟩, fun hmany => absurd hfailed (Int.not_le.mpr hmany)⟩
    · rw [step]
      omega
    · rw [step]
      omega
  · rw [step_of_not_lacks hlacks]
    exact ⟨hlimits, fun _ => posts_of_not_lacks hlacks clock⟩

end Sirah.JobController
