import Sirah.Job.Job
import Sirah.Lib.Run

/-!
# The pods of a job

A job counts its pods without knowing which ones: `World` keeps the created pods beside it, each with what has been
reported of it.

* `Exact`: the counters and the list of the job are those of its pods.
* **`exact_iff`**: along a run that reports and deletes each pod at most once they are, **iff** no pod is created
  while 1000 are listed, and no pod is reported after its deletion or deleted after its report while another one runs.
* `terminated_pod_deleted`: a pod has succeeded and is deleted, and the job forgets another one.
-/

namespace Sirah.Jobs

open Runs

/-- What is reported of a pod. -/
inductive Outcome where
  | succeeded
  | failed
  deriving DecidableEq

/-- A pod that was created. -/
structure Pod where
  name : CString
  outcome : Option Outcome
  deleted : Bool
  deriving DecidableEq

namespace Pod

/-- Neither terminated nor deleted. -/
def running (p : Pod) : Bool := p.outcome.isNone && !p.deleted

/-- Not deleted. -/
def kept (p : Pod) : Bool := !p.deleted

/-- Reported as succeeded. -/
def successful (p : Pod) : Bool := p.outcome == some .succeeded

end Pod

structure World where
  job : Job
  pods : List Pod
  deriving DecidableEq

/-- Pods are named by their place in the order of creation. -/
inductive Op where
  | createPod (podIndex : Int) (now : Nat)
  | markPodSucceeded (i : Nat)
  | markPodFailed (i : Nat) (retry : Bool)
  | deletePod (i : Nat)

namespace World

/-- The report of a pod: the call on the job, and what is now known of the pod. -/
def report (w : World) (i : Nat) (call : Job → CString → Job) (change : Pod → Pod) : World :=
  match w.pods[i]? with
  | none => w
  | some p => ⟨call w.job p.name, w.pods.set i (change p)⟩

def step (w : World) : Op → World
  | .createPod podIndex now =>
    match w.job.createPod podIndex now with
    | (job, .error _) => ⟨job, w.pods⟩
    | (job, .ok name) => ⟨job, w.pods ++ [⟨name, none, false⟩]⟩
  | .markPodSucceeded i => w.report i Job.markPodSucceeded fun p => { p with outcome := some .succeeded }
  | .markPodFailed i retry =>
    w.report i (fun job name => job.markPodFailed name retry) fun p => { p with outcome := some .failed }
  | .deletePod i => w.report i Job.deletePod fun p => { p with deleted := true }

/-- Each pod is reported at most once, and deleted at most once. -/
def Legal (w : World) : Op → Prop
  | .createPod _ _ => True
  | .markPodSucceeded i => ∃ p, w.pods[i]? = some p ∧ p.outcome = none
  | .markPodFailed i _ => ∃ p, w.pods[i]? = some p ∧ p.outcome = none
  | .deletePod i => ∃ p, w.pods[i]? = some p ∧ p.deleted = false

/-- **The accounts are exact.** -/
structure Exact (w : World) : Prop where
  active : w.job.status.active.toInt = w.pods.countP Pod.running
  succeeded : w.job.status.succeeded.toInt = w.pods.countP Pod.successful
  podNames : w.job.status.podNames.Perm ((w.pods.filter Pod.kept).map Pod.name)

/-- No pod runs. -/
def Idle (w : World) : Prop := ∀ p ∈ w.pods, p.running = false

/-- The condition on a step. -/
def Clean (w : World) : Op → Prop
  | .createPod podIndex _ => 0 ≤ podIndex → w.job.status.podNames.length < 1000
  | .markPodSucceeded i => (∀ p, w.pods[i]? = some p → p.deleted = true → Idle w) ∧
      w.pods.countP Pod.successful < 2147483647
  | .markPodFailed i _ => ∀ p, w.pods[i]? = some p → p.deleted = true → Idle w
  | .deletePod i => ∀ p, w.pods[i]? = some p → p.outcome ≠ none → Idle w

variable {w : World}

theorem idle_iff : Idle w ↔ w.pods.countP Pod.running = 0 := by
  simp [Idle, List.countP_eq_zero]

/-- The list around a pod. -/
theorem split_pods {i : Nat} {p : Pod} (h : w.pods[i]? = some p) :
    ∃ l₁ l₂, w.pods = l₁ ++ p :: l₂ ∧ ∀ q, w.pods.set i q = l₁ ++ q :: l₂ := by
  obtain ⟨hlt, rfl⟩ := List.getElem?_eq_some_iff.mp h
  refine ⟨w.pods.take i, w.pods.drop (i + 1), ?_, fun q => ?_⟩
  · rw [List.getElem_cons_drop, List.take_append_drop]
  · rw [List.set_eq_take_append_cons_drop, if_pos hlt]

theorem report_eq {i : Nat} {p : Pod} (h : w.pods[i]? = some p) (call : Job → CString → Job) (change : Pod → Pod) :
    w.report i call change = ⟨call w.job p.name, w.pods.set i (change p)⟩ := by
  rw [report, h]

/-- A count changes by the pod that changes. -/
theorem countP_set {i : Nat} {p : Pod} (h : w.pods[i]? = some p) (f : Pod → Bool) (q : Pod) :
    (w.pods.set i q).countP f + (f p).toNat = w.pods.countP f + (f q).toNat := by
  obtain ⟨l₁, l₂, heq, hset⟩ := split_pods h
  rw [hset, heq, List.countP_append, List.countP_append, List.countP_cons, List.countP_cons]
  cases f p <;> cases f q <;> simp <;> omega

/-- A pod that stays leaves its name in its place. -/
theorem keptNames_set {i : Nat} {p : Pod} (h : w.pods[i]? = some p) (q : Pod) (hname : q.name = p.name)
    (hdeleted : q.deleted = p.deleted) :
    ((w.pods.set i q).filter Pod.kept).map Pod.name = (w.pods.filter Pod.kept).map Pod.name := by
  obtain ⟨l₁, l₂, heq, hset⟩ := split_pods h
  rw [hset, heq]
  cases hd : p.deleted <;> simp [Pod.kept, hdeleted, hd, hname]

/-- A pod that is deleted takes its name with it. -/
theorem keptNames_delete {i : Nat} {p : Pod} (h : w.pods[i]? = some p) (hkept : p.deleted = false) :
    (((w.pods.filter Pod.kept).map Pod.name).erase p.name).Perm
      (((w.pods.set i { p with deleted := true }).filter Pod.kept).map Pod.name) := by
  obtain ⟨l₁, l₂, heq, hset⟩ := split_pods h
  have hbefore : (w.pods.filter Pod.kept).map Pod.name =
      (l₁.filter Pod.kept).map Pod.name ++ p.name :: (l₂.filter Pod.kept).map Pod.name := by
    rw [heq]
    simp [Pod.kept, hkept]
  have hafter : ((w.pods.set i { p with deleted := true }).filter Pod.kept).map Pod.name =
      (l₁.filter Pod.kept).map Pod.name ++ (l₂.filter Pod.kept).map Pod.name := by
    rw [hset]
    simp [Pod.kept]
  rw [hbefore, hafter]
  have hmiddle := @List.perm_middle _ p.name ((l₁.filter Pod.kept).map Pod.name) ((l₂.filter Pod.kept).map Pod.name)
  simpa using hmiddle.erase p.name

/-- The counter goes down exactly when a pod stops running, or it is zero. -/
theorem dropActive_eq_iff {active : BitVec 32} {n m : Nat} {runs : Bool} (h : active.toInt = n)
    (hm : m + runs.toNat = n) : (Job.dropActive active).toInt = m ↔ (runs = false → n = 0) := by
  rw [Job.toInt_dropActive (by omega), h]
  cases runs with
  | false =>
    simp only [Bool.toNat_false, Nat.add_zero, forall_const] at hm ⊢
    omega
  | true =>
    simp only [Bool.toNat_true, Bool.true_eq_false, false_implies, iff_true] at hm ⊢
    omega

/-- **A report keeps the accounts** that its call keeps, if the pod was running or none is. -/
theorem exact_report_iff {i : Nat} {p : Pod} (h : w.pods[i]? = some p) (hexact : Exact w) (job : Job) (q : Pod)
    (hactive : job.status.active = Job.dropActive w.job.status.active) (hq : q.running = false)
    (hnames : job.status.podNames.Perm (((w.pods.set i q).filter Pod.kept).map Pod.name)) :
    Exact ⟨job, w.pods.set i q⟩ ↔ (p.running = false → Idle w) ∧
      job.status.succeeded.toInt = (w.pods.set i q).countP Pod.successful := by
  have hcount := countP_set h Pod.running q
  rw [hq, Bool.toNat_false, Nat.add_zero] at hcount
  have hdrop := dropActive_eq_iff hexact.active hcount
  rw [← hactive, ← idle_iff] at hdrop
  exact ⟨fun h' => ⟨hdrop.mp h'.active, h'.succeeded⟩, fun h' => ⟨hdrop.mpr h'.1, h'.2, hnames⟩⟩

theorem succeeded_set {i : Nat} {p : Pod} (h : w.pods[i]? = some p) (q : Pod) (hq : q.successful = p.successful) :
    (w.pods.set i q).countP Pod.successful = w.pods.countP Pod.successful := by
  have hcount := countP_set h Pod.successful q
  rw [hq] at hcount
  omega

theorem exact_markPodSucceeded_iff {i : Nat} {p : Pod} (h : w.pods[i]? = some p) (hnone : p.outcome = none)
    (hexact : Exact w) : Exact (w.step (.markPodSucceeded i)) ↔ Clean w (.markPodSucceeded i) := by
  have hrunning : p.running = false ↔ p.deleted = true := by simp [Pod.running, hnone]
  have hp : p.successful = false := by simp [Pod.successful, hnone]
  have hcount : (w.pods.set i { p with outcome := some .succeeded }).countP Pod.successful =
      w.pods.countP Pod.successful + 1 := by
    have hset := countP_set h Pod.successful { p with outcome := some .succeeded }
    rw [hp] at hset
    exact hset
  have hnames : w.job.status.podNames.Perm
      (((w.pods.set i { p with outcome := some .succeeded }).filter Pod.kept).map Pod.name) := by
    rw [keptNames_set h { p with outcome := some .succeeded } rfl rfl]
    exact hexact.podNames
  have hfits : (w.job.status.succeeded + 1).toInt =
      (w.pods.set i { p with outcome := some .succeeded }).countP Pod.successful ↔
        w.pods.countP Pod.successful < 2147483647 := by
    have hsucc := Job.toInt_succ_eq_iff (c := w.job.status.succeeded) (by rw [hexact.succeeded]; omega)
    rw [hcount, Int.natCast_succ, ← hexact.succeeded, hsucc, hexact.succeeded]
    omega
  rw [step, report_eq h, exact_report_iff h hexact (w.job.markPodSucceeded p.name) _ rfl rfl hnames, hrunning]
  simp only [Clean, h, Option.some.injEq, forall_eq']
  exact and_congr_right fun _ => hfits

theorem exact_markPodFailed_iff {i : Nat} {p : Pod} (h : w.pods[i]? = some p) (hnone : p.outcome = none)
    (hexact : Exact w) (retry : Bool) : Exact (w.step (.markPodFailed i retry)) ↔ Clean w (.markPodFailed i retry) := by
  have hrunning : p.running = false ↔ p.deleted = true := by simp [Pod.running, hnone]
  have hp : Pod.successful { p with outcome := some .failed } = p.successful := by simp [Pod.successful, hnone]
  have hnames : w.job.status.podNames.Perm
      (((w.pods.set i { p with outcome := some .failed }).filter Pod.kept).map Pod.name) := by
    rw [keptNames_set h { p with outcome := some .failed } rfl rfl]
    exact hexact.podNames
  rw [step, report_eq h, exact_report_iff h hexact (w.job.markPodFailed p.name retry) _ rfl rfl hnames, hrunning,
    succeeded_set h _ hp]
  simp only [Job.markPodFailed, hexact.succeeded, and_true, Clean, h, Option.some.injEq, forall_eq']

theorem exact_deletePod_iff {i : Nat} {p : Pod} (h : w.pods[i]? = some p) (hkept : p.deleted = false)
    (hexact : Exact w) : Exact (w.step (.deletePod i)) ↔ Clean w (.deletePod i) := by
  have hrunning : p.running = false ↔ p.outcome ≠ none := by
    simp [Pod.running, hkept, Option.isSome_iff_ne_none]
  have hgone : Pod.running { p with deleted := true } = false := by simp [Pod.running]
  have hnames := (hexact.podNames.erase p.name).trans (keptNames_delete h hkept)
  rw [step, report_eq h, exact_report_iff h hexact (w.job.deletePod p.name) _ rfl hgone hnames, hrunning,
    succeeded_set h { p with deleted := true } rfl]
  simp only [Job.deletePod, hexact.succeeded, and_true, Clean, h, Option.some.injEq, forall_eq']

theorem exact_createPod_iff (hexact : Exact w) (podIndex : Int) (now : Nat) :
    Exact (w.step (.createPod podIndex now)) ↔ Clean w (.createPod podIndex now) := by
  by_cases hneg : podIndex < 0
  · simp only [step, Job.createPod, if_pos hneg, Clean]
    exact iff_of_true hexact fun hle => by omega
  · have hlen := hexact.podNames.length_eq
    have hle : w.pods.countP Pod.running ≤ (w.pods.filter Pod.kept).length := by
      rw [← List.countP_eq_length_filter]
      refine List.countP_mono_left fun p _ hp => ?_
      simp only [Pod.running, Bool.and_eq_true] at hp
      exact hp.2
    rw [List.length_map] at hlen
    simp only [step, Job.createPod, if_neg hneg, Clean]
    constructor
    · intro h' _
      by_contra hfull
      have hlen' := h'.podNames.length_eq
      rw [if_neg hfull, hlen] at hlen'
      simp [Pod.kept] at hlen'
    · intro hroom
      have hlt := hroom (by omega)
      refine ⟨?_, ?_, ?_⟩
      · dsimp only
        rw [(Job.toInt_succ_eq_iff (by rw [hexact.active]; omega)).mpr (by rw [hexact.active]; omega), hexact.active]
        simp [Pod.running]
      · simpa [Pod.successful] using hexact.succeeded
      · simpa [hlt, Pod.kept] using hexact.podNames.append_right _

theorem exact_step_iff (hexact : Exact w) {op : Op} (hlegal : Legal w op) : Exact (w.step op) ↔ Clean w op := by
  cases op with
  | createPod podIndex now => exact exact_createPod_iff hexact podIndex now
  | markPodSucceeded i =>
    obtain ⟨p, hp, hnone⟩ := hlegal
    exact exact_markPodSucceeded_iff hp hnone hexact
  | markPodFailed i retry =>
    obtain ⟨p, hp, hnone⟩ := hlegal
    exact exact_markPodFailed_iff hp hnone hexact retry
  | deletePod i =>
    obtain ⟨p, hp, hkept⟩ := hlegal
    exact exact_deletePod_iff hp hkept hexact

theorem exact_create {ns name : CString} {spec : JobSpec} {job : Job} (h : create ns name spec = .ok job) :
    Exact ⟨job, []⟩ := by
  unfold create at h
  split at h
  · cases h
  · cases h
    exact ⟨rfl, rfl, List.Perm.nil⟩

/-- **The accounts are exact, exactly** along the clean runs. -/
theorem exact_iff {ns name : CString} {spec : JobSpec} {job : Job} (h : create ns name spec = .ok job)
    {ops : List Op} (hlegal : AllSteps step Legal ⟨job, []⟩ ops) :
    AllStates step Exact ⟨job, []⟩ ops ↔ AllSteps step Clean ⟨job, []⟩ ops :=
  allStates_iff_allSteps (I := fun _ => True) (fun _ _ _ _ => trivial)
    (fun _ _ _ hleg hexact => exact_step_iff hexact hleg) trivial (exact_create h) hlegal

/-! ## A pod that is deleted after its report -/

/-- Two pods at a time. -/
def batchSpec : JobSpec := ⟨"batch", "default", 2, 2, 6, false, 0⟩

/-- `job_create` of it. -/
def batchJob : Job := ⟨batchSpec, ⟨0, 0, 0, [], 0⟩⟩

theorem create_batchJob : create "default" "batch" batchSpec = .ok batchJob := rfl

theorem first_pod_exact :
    AllStates step Exact ⟨batchJob, []⟩ [.createPod 0 0, .markPodSucceeded 0] := by
  have hlegal : AllSteps step Legal ⟨batchJob, []⟩ [.createPod 0 0, .markPodSucceeded 0] :=
    ⟨trivial, ⟨_, rfl, rfl⟩, trivial⟩
  refine (exact_iff create_batchJob hlegal).mpr ⟨fun _ => ?_, ⟨?_, ?_⟩, trivial⟩
  · decide
  · rintro p ⟨⟩ hdeleted
    exact absurd hdeleted (by decide)
  · decide

/-- **A running pod is forgotten**: the first of two pods has succeeded and is deleted, which takes it off `active`
twice. -/
theorem terminated_pod_deleted :
    ¬ ∀ (ns name : CString) (spec : JobSpec) (job : Job), create ns name spec = .ok job → ∀ ops : List Op,
      AllSteps step Legal ⟨job, []⟩ ops → AllStates step Exact ⟨job, []⟩ ops := by
  intro h
  have hrun := (h "default" "batch" batchSpec batchJob create_batchJob
    [.createPod 0 0, .createPod 1 0, .markPodSucceeded 0, .deletePod 0]
    ⟨trivial, trivial, ⟨_, rfl, rfl⟩, ⟨_, rfl, rfl⟩, trivial⟩).run_mem
  exact absurd hrun.active (by decide)

end World

end Sirah.Jobs
