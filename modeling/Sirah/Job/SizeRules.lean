import Sirah.Job.Accounting

/-!
# The two size rules of a job

`job_get_desired_pod_count` takes the smaller of the parallelism and the remaining completions;
`job_should_create_more_pods` asks whether fewer pods are listed than the parallelism. The list holds the running pods
and those that have terminated and are not deleted yet.

* `Agrees`: the rules agree, no more pods run than are needed, and an idle job that is not finished asks for a pod.
* `Room`: while fewer pods run than are desired, the finished ones leave a place; otherwise they fill the list.
* **`sizeRules_agree_iff`**: every state of a run agrees **iff** every state of it has room.
* `stalled_job`: the only place is taken by a pod that has succeeded, and the second completion never starts.
-/

namespace Sirah.Jobs

open Runs

/-- Terminated and not deleted. -/
def Pod.finished (p : Pod) : Bool := p.outcome.isSome && !p.deleted

namespace SizeRules

inductive Op where
  | pod (op : Jobs.Op)
  | suspend
  | resume

def step (w : World) : Op → World
  | .pod op => w.step op
  | .suspend => { w with job := w.job.suspend }
  | .resume => { w with job := w.job.resume }

/-- A pod is created when the job asks for one, reported once, and deleted after that. -/
def Guarded (w : World) : Op → Prop
  | .pod (.createPod _ _) => w.job.shouldCreateMorePods = true
  | .pod (.markPodSucceeded i) => ∃ p, w.pods[i]? = some p ∧ p.outcome = none
  | .pod (.markPodFailed i _) => ∃ p, w.pods[i]? = some p ∧ p.outcome = none
  | .pod (.deletePod i) => ∃ p, w.pods[i]? = some p ∧ p.outcome ≠ none ∧ p.deleted = false
  | .suspend => True
  | .resume => True

/-- How many pods run. -/
def running (w : World) : Nat := w.pods.countP Pod.running

/-- How many pods have terminated and are still listed. -/
def finished (w : World) : Nat := w.pods.countP Pod.finished

/-- Neither suspended, complete nor failed. -/
def Unfinished (job : Job) : Prop := job.isSuspended = false ∧ job.isComplete = false ∧ job.isFailed = false

/-- **The rules agree**, and what follows. -/
structure Agrees (w : World) : Prop where
  rules : w.job.shouldCreateMorePods = true ↔ Unfinished w.job ∧ running w < w.job.desiredPodCount.toInt
  within : running w ≤ min w.job.spec.parallelism.toInt w.job.remainingCompletions.toInt
  asks : Unfinished w.job → running w = 0 → w.job.shouldCreateMorePods = true

/-- **There is room**, as long as the job is unfinished. -/
structure Room (w : World) : Prop where
  /-- The finished pods leave a place for a pod that is needed. -/
  starts : Unfinished w.job → running w < w.job.spec.parallelism.toInt →
    running w < w.job.remainingCompletions.toInt → running w + finished w < w.job.spec.parallelism.toInt
  /-- If the running pods suffice, the list is full. -/
  rests : Unfinished w.job → w.job.remainingCompletions.toInt ≤ running w →
    w.job.spec.parallelism.toInt ≤ running w + finished w

/-! ## The invariant -/

/-- What the guarded runs keep. -/
structure Counted (w : World) : Prop where
  completions : 0 < w.job.spec.completions.toInt ∧ w.job.spec.completions.toInt ≤ 10000
  parallelism : 0 < w.job.spec.parallelism.toInt ∧ w.job.spec.parallelism.toInt ≤ 1000
  podNames : w.job.status.podNames.Perm ((w.pods.filter Pod.kept).map Pod.name)
  reported : ∀ p ∈ w.pods, p.deleted = true → p.outcome ≠ none
  listed : w.job.status.podNames.length ≤ w.job.spec.parallelism.toInt
  nonneg : 0 ≤ w.job.status.succeeded.toInt
  bound : w.job.status.succeeded.toInt + running w ≤ w.job.spec.completions.toInt + w.job.spec.parallelism.toInt

variable {w : World}

theorem countP_kept (pods : List Pod) :
    pods.countP Pod.kept = pods.countP Pod.running + pods.countP Pod.finished := by
  induction pods with
  | nil => rfl
  | cons p pods ih =>
    obtain ⟨name, outcome, deleted⟩ := p
    rw [List.countP_cons, List.countP_cons, List.countP_cons, ih]
    cases deleted <;> cases outcome <;> simp [Pod.kept, Pod.running, Pod.finished] <;> omega

/-- The list holds the running and the finished pods. -/
theorem Counted.length (h : Counted w) : w.job.status.podNames.length = running w + finished w := by
  rw [h.podNames.length_eq, List.length_map, ← List.countP_eq_length_filter, countP_kept]
  rfl

theorem Counted.toInt_remaining (h : Counted w) :
    (w.job.spec.completions - w.job.status.succeeded).toInt =
      w.job.spec.completions.toInt - w.job.status.succeeded.toInt := by
  obtain ⟨-, hcompletions⟩ := h.completions
  obtain ⟨-, hparallelism⟩ := h.parallelism
  have hnonneg := h.nonneg
  have hbound := h.bound
  rw [BitVec.toInt_sub]
  exact Int.bmod_eq_of_le (by omega) (by omega)

theorem Counted.toInt_remainingCompletions (h : Counted w) :
    w.job.remainingCompletions.toInt =
      max 0 (w.job.spec.completions.toInt - w.job.status.succeeded.toInt) := by
  have hremaining := h.toInt_remaining
  unfold Job.remainingCompletions
  dsimp only
  split
  · rw [show (0 : BitVec 32).toInt = 0 from rfl]
    omega
  · omega

theorem toInt_desiredPodCount (job : Job) :
    job.desiredPodCount.toInt = min job.spec.parallelism.toInt job.remainingCompletions.toInt := by
  have heq : job.desiredPodCount =
      if job.remainingCompletions.toInt < job.spec.parallelism.toInt then job.remainingCompletions
      else job.spec.parallelism := rfl
  rw [heq]
  split <;> omega

theorem unfinished_iff {job : Job} : Unfinished job ↔ job.spec.suspend = false ∧
    job.status.succeeded.toInt < job.spec.completions.toInt ∧
    job.status.failureCount.toInt ≤ job.spec.backoffLimit.toInt := by
  simp [Unfinished, Job.isSuspended, Job.isComplete, Job.isFailed]

/-- **What `job_should_create_more_pods` asks.** -/
theorem Counted.shouldCreateMorePods_iff (h : Counted w) : w.job.shouldCreateMorePods = true ↔
    Unfinished w.job ∧ running w + finished w < w.job.spec.parallelism.toInt := by
  have hremaining := h.toInt_remaining
  have hlength := h.length
  rw [unfinished_iff]
  unfold Job.shouldCreateMorePods
  split
  · rename_i hclosed
    simp only [Bool.or_eq_true, decide_eq_true_eq] at hclosed
    refine iff_of_false Bool.false_ne_true fun hopen => ?_
    rcases hclosed with (hsuspend | hcomplete) | hfailed
    · exact absurd (hopen.1.1.symm.trans hsuspend) Bool.false_ne_true
    · omega
    · omega
  · rename_i hopen
    simp only [Bool.or_eq_true, decide_eq_true_eq, not_or, Bool.not_eq_true] at hopen
    obtain ⟨⟨hsuspend, hcomplete⟩, hfailed⟩ := hopen
    rw [decide_eq_true_eq, hlength]
    refine ⟨fun hsmall => ⟨⟨hsuspend, by omega, by omega⟩, by omega⟩, fun hsmall => ⟨by omega, by omega⟩⟩

/-- **Agreement is room**, for a job whose pods are counted and within the limits. -/
theorem agrees_iff_room (h : Counted w)
    (hwithin : running w ≤ min w.job.spec.parallelism.toInt w.job.remainingCompletions.toInt) :
    Agrees w ↔ Room w := by
  have hshould := h.shouldCreateMorePods_iff
  have hdesired := toInt_desiredPodCount w.job
  constructor
  · intro hagrees
    have hrules := hshould.symm.trans hagrees.rules
    refine ⟨fun hopen hlt hlt' => (hrules.mpr ⟨hopen, by omega⟩).2, fun hopen hle => ?_⟩
    by_contra hroom
    have hless := (hrules.mp ⟨hopen, by omega⟩).2
    omega
  · intro hroom
    have hrules : w.job.shouldCreateMorePods = true ↔
        Unfinished w.job ∧ running w < w.job.desiredPodCount.toInt := by
      rw [hshould]
      refine and_congr_right fun hopen => ⟨fun hplace => ?_, fun hless => ?_⟩
      · have hrests := hroom.rests hopen
        omega
      · exact hroom.starts hopen (by omega) (by omega)
    refine ⟨hrules, hwithin, fun hopen hidle => hrules.mpr ⟨hopen, ?_⟩⟩
    have hremaining := h.toInt_remainingCompletions
    have hparallelism := h.parallelism.1
    have hincomplete := (unfinished_iff.mp hopen).2.1
    omega

/-! ## Steps -/

/-- The pods are within the limits. -/
def Within (w : World) : Prop :=
  running w ≤ min w.job.spec.parallelism.toInt w.job.remainingCompletions.toInt

/-- The pod that a guarded report is about. -/
theorem Counted.running_of_outcome (h : Counted w) {i : Nat} {p : Pod} (hp : w.pods[i]? = some p)
    (hnone : p.outcome = none) : p.deleted = false ∧ p.running = true := by
  have hdeleted : p.deleted = false := by
    by_contra hdel
    rw [Bool.not_eq_false] at hdel
    exact h.reported p (List.mem_of_getElem? hp) hdel hnone
  exact ⟨hdeleted, by simp [Pod.running, hnone, hdeleted]⟩

/-- What a report keeps: `q` is the pod afterwards. -/
theorem Counted.report (h : Counted w) (i : Nat) {q : Pod} {job : Job}
    (hspec : job.spec = w.job.spec)
    (hnames : job.status.podNames.Perm (((w.pods.set i q).filter Pod.kept).map Pod.name))
    (hlength : job.status.podNames.length ≤ w.job.status.podNames.length)
    (hq : q.outcome ≠ none) (hnonneg : 0 ≤ job.status.succeeded.toInt)
    (hcount : job.status.succeeded.toInt + (w.pods.set i q).countP Pod.running ≤
      w.job.status.succeeded.toInt + running w) : Counted ⟨job, w.pods.set i q⟩ := by
  have hlisted := h.listed
  have hbound := h.bound
  refine ⟨?_, ?_, hnames, fun r hr hdel => ?_, ?_, hnonneg, ?_⟩
  · rw [hspec]
    exact h.completions
  · rw [hspec]
    exact h.parallelism
  · rcases List.mem_or_eq_of_mem_set hr with hr | rfl
    · exact h.reported r hr hdel
    · exact hq
  · rw [hspec]
    dsimp only
    omega
  · rw [hspec]
    dsimp only [running] at hcount hbound ⊢
    omega

/-- A report takes a pod off the running ones. -/
theorem Counted.running_report (h : Counted w) {i : Nat} {p : Pod} (hp : w.pods[i]? = some p) (hnone : p.outcome = none)
    (outcome : Outcome) :
    (w.pods.set i { p with outcome := some outcome }).countP Pod.running + 1 = running w := by
  have hcount := World.countP_set hp Pod.running { p with outcome := some outcome }
  rw [(h.running_of_outcome hp hnone).2] at hcount
  exact hcount

theorem Counted.toInt_succ (h : Counted w) :
    (w.job.status.succeeded + 1).toInt = w.job.status.succeeded.toInt + 1 := by
  have hcompletions := h.completions.2
  have hparallelism := h.parallelism.2
  have hbound := h.bound
  exact (Job.toInt_succ_eq_iff h.nonneg).mpr (by omega)

/-- A pod that is deleted after its report does not run before or after. -/
theorem running_delete {i : Nat} {p : Pod} (hp : w.pods[i]? = some p) (hsome : p.outcome ≠ none) :
    (w.pods.set i { p with deleted := true }).countP Pod.running = running w := by
  have hcount := World.countP_set hp Pod.running { p with deleted := true }
  have hbefore : p.running = false := by simp [Pod.running, hsome]
  have hafter : Pod.running { p with deleted := true } = false := by simp [Pod.running]
  rw [hbefore, hafter] at hcount
  exact hcount

theorem Counted.createPod (h : Counted w) (hshould : w.job.shouldCreateMorePods = true) (podIndex : Int) (now : Nat) :
    Counted (w.step (.createPod podIndex now)) := by
  obtain ⟨hopen, hplace⟩ := h.shouldCreateMorePods_iff.mp hshould
  have hincomplete := (unfinished_iff.mp hopen).2.1
  have hlength := h.length
  have hparallelism := h.parallelism.2
  have hlt : w.job.status.podNames.length < 1000 := by omega
  by_cases hneg : podIndex < 0
  · simpa only [World.step, Job.createPod, if_pos hneg] using h
  · simp only [World.step, Job.createPod, if_neg hneg, if_pos hlt]
    refine ⟨h.completions, h.parallelism, ?_, fun p hp hdel => ?_, ?_, h.nonneg, ?_⟩
    · simpa [Pod.kept] using h.podNames.append_right _
    · rcases List.mem_append.mp hp with hp | hp
      · exact h.reported p hp hdel
      · rw [List.mem_singleton.mp hp] at hdel
        exact absurd hdel Bool.false_ne_true
    · simp only [List.length_append, List.length_singleton]
      omega
    · unfold running at hplace ⊢
      simp only [List.countP_append]
      simp [Pod.running]
      omega

theorem Counted.markPodSucceeded (h : Counted w) {i : Nat} {p : Pod} (hp : w.pods[i]? = some p)
    (hnone : p.outcome = none) : Counted (w.step (.markPodSucceeded i)) := by
  have hrunning := h.running_report hp hnone .succeeded
  have hnonneg := h.nonneg
  rw [World.step, World.report_eq hp]
  refine h.report i rfl ?_ (Nat.le_refl _) (by simp) ?_ ?_
  · rw [World.keptNames_set hp { p with outcome := some .succeeded } rfl rfl]
    exact h.podNames
  · simp only [Job.markPodSucceeded, h.toInt_succ]
    omega
  · simp only [Job.markPodSucceeded, h.toInt_succ]
    omega

theorem Counted.markPodFailed (h : Counted w) {i : Nat} {p : Pod} (hp : w.pods[i]? = some p)
    (hnone : p.outcome = none) (retry : Bool) : Counted (w.step (.markPodFailed i retry)) := by
  have hrunning := h.running_report hp hnone .failed
  rw [World.step, World.report_eq hp]
  refine h.report i rfl ?_ (Nat.le_refl _) (by simp) h.nonneg ?_
  · rw [World.keptNames_set hp { p with outcome := some .failed } rfl rfl]
    exact h.podNames
  · simp only [Job.markPodFailed]
    omega

theorem Counted.deletePod (h : Counted w) {i : Nat} {p : Pod} (hp : w.pods[i]? = some p) (hsome : p.outcome ≠ none)
    (hkept : p.deleted = false) : Counted (w.step (.deletePod i)) := by
  have hrunning := running_delete hp hsome
  rw [World.step, World.report_eq hp]
  refine h.report i rfl ?_ (List.length_erase_le ..) hsome h.nonneg ?_
  · exact (h.podNames.erase p.name).trans (World.keptNames_delete hp hkept)
  · simp only [Job.deletePod]
    omega

theorem Counted.step (h : Counted w) {op : Op} (hguard : Guarded w op) : Counted (step w op) := by
  cases op with
  | pod op =>
    cases op with
    | createPod podIndex now => exact h.createPod hguard podIndex now
    | markPodSucceeded i =>
      obtain ⟨p, hp, hnone⟩ := hguard
      exact h.markPodSucceeded hp hnone
    | markPodFailed i retry =>
      obtain ⟨p, hp, hnone⟩ := hguard
      exact h.markPodFailed hp hnone retry
    | deletePod i =>
      obtain ⟨p, hp, hsome, hkept⟩ := hguard
      exact h.deletePod hp hsome hkept
  | suspend => exact ⟨h.completions, h.parallelism, h.podNames, h.reported, h.listed, h.nonneg, h.bound⟩
  | resume => exact ⟨h.completions, h.parallelism, h.podNames, h.reported, h.listed, h.nonneg, h.bound⟩

/-- The rules in numbers. -/
theorem Counted.within_iff (h : Counted w) : Within w ↔ running w ≤ w.job.spec.parallelism.toInt ∧
    (0 < running w → running w ≤ w.job.spec.completions.toInt - w.job.status.succeeded.toInt) := by
  have hremaining := h.toInt_remainingCompletions
  unfold Within
  omega

theorem within_createPod (h : Counted w) (hwithin : Within w) (hroom : Room w)
    (hshould : w.job.shouldCreateMorePods = true) (podIndex : Int) (now : Nat) :
    Within (w.step (.createPod podIndex now)) := by
  have hcounted := h.createPod hshould podIndex now
  obtain ⟨hopen, hplace⟩ := h.shouldCreateMorePods_iff.mp hshould
  have hremaining := h.toInt_remainingCompletions
  -- the job asks for a pod that is needed
  have hneeded : running w < w.job.remainingCompletions.toInt := by
    by_contra hle
    have hfull := hroom.rests hopen (by omega)
    omega
  by_cases hneg : podIndex < 0
  · simpa only [World.step, Job.createPod, if_pos hneg] using hwithin
  · rw [hcounted.within_iff]
    simp only [World.step, Job.createPod, if_neg hneg]
    have hrunning : running ⟨w.job, w.pods ++ [⟨generatePodName w.job.spec.name podIndex.toNat now, none, false⟩]⟩ =
        running w + 1 := by
      unfold running
      simp [Pod.running]
    dsimp only [running] at hrunning hplace hneeded ⊢
    omega

theorem within_step (h : Counted w) (hwithin : Within w) (hroom : Room w) {op : Op} (hguard : Guarded w op) :
    Within (step w op) := by
  have hnext := h.step hguard
  have hbefore := h.within_iff.mp hwithin
  cases op with
  | pod op =>
    cases op with
    | createPod podIndex now => exact within_createPod h hwithin hroom hguard podIndex now
    | markPodSucceeded i =>
      obtain ⟨p, hp, hnone⟩ := hguard
      have hrunning := h.running_report hp hnone .succeeded
      rw [hnext.within_iff]
      simp only [step, World.step, World.report_eq hp, Job.markPodSucceeded, h.toInt_succ]
      dsimp only [running] at hrunning hbefore ⊢
      omega
    | markPodFailed i retry =>
      obtain ⟨p, hp, hnone⟩ := hguard
      have hrunning := h.running_report hp hnone .failed
      rw [hnext.within_iff]
      simp only [step, World.step, World.report_eq hp, Job.markPodFailed]
      dsimp only [running] at hrunning hbefore ⊢
      omega
    | deletePod i =>
      obtain ⟨p, hp, hsome, hkept⟩ := hguard
      have hrunning := running_delete hp hsome
      rw [hnext.within_iff]
      simp only [step, World.step, World.report_eq hp, Job.deletePod]
      dsimp only [running] at hrunning hbefore ⊢
      omega
  | suspend => exact hwithin
  | resume => exact hwithin

/-! ## Runs -/

theorem counted_create {ns name : CString} {spec : JobSpec} {job : Job} (h : create ns name spec = .ok job) :
    Counted ⟨job, []⟩ ∧ Within ⟨job, []⟩ := by
  unfold create at h
  split at h
  · cases h
  · rename_i hvalid
    cases h
    unfold validateSpec at hvalid
    split_ifs at hvalid with hname hcompletions hparallelism
    have hcounted : Counted ⟨⟨{ spec with ns := ns.take 127, name := name.take 255 }, ⟨0, 0, 0, [], 0⟩⟩, []⟩ := by
      refine ⟨by dsimp only; omega, by dsimp only; omega, List.Perm.nil, by simp, ?_, Int.le_refl 0, ?_⟩
      · simp only [List.length_nil]
        omega
      · simp only [running, List.countP_nil, show (0 : BitVec 32).toInt = 0 from rfl]
        omega
    refine ⟨hcounted, hcounted.within_iff.mpr ?_⟩
    simp only [running, List.countP_nil]
    omega

/-- **The rules agree, exactly** along the runs that have room in every state. -/
theorem sizeRules_agree_iff {ns name : CString} {spec : JobSpec} {job : Job} (h : create ns name spec = .ok job)
    {ops : List Op} (hguard : AllSteps step Guarded ⟨job, []⟩ ops) :
    AllStates step Agrees ⟨job, []⟩ ops ↔ AllStates step Room ⟨job, []⟩ ops := by
  obtain ⟨hcounted, hwithin⟩ := counted_create h
  have hall : AllStates step Counted ⟨job, []⟩ ops :=
    allStates_of_allSteps (fun _ _ hc hg => hc.step hg) hcounted hguard
  constructor
  · intro hagrees
    have hboth := hall.and (hagrees.imp fun _ ha => ha.within)
    exact (allStates_congr (fun _ hb => agrees_iff_room hb.1 hb.2) hboth).mp hagrees
  · intro hroom
    have hsteps := hguard.and (hroom.allSteps (P := fun w _ => Room w) fun _ _ hr => hr)
    have hboth : AllStates step (fun w => Counted w ∧ Within w) ⟨job, []⟩ ops :=
      allStates_of_allSteps (fun _ _ hcw hgr => ⟨hcw.1.step hgr.1, within_step hcw.1 hcw.2 hgr.2 hgr.1⟩)
        ⟨hcounted, hwithin⟩ hsteps
    exact (allStates_congr (fun _ hb => agrees_iff_room hb.1 hb.2) hboth).mpr hroom

/-! ## A job that stalls -/

/-- Two completions, one pod at a time. -/
def stepsSpec : JobSpec := ⟨"steps", "default", 2, 1, 6, false, 0⟩

/-- `job_create` of it. -/
def stepsJob : Job := ⟨stepsSpec, ⟨0, 0, 0, [], 0⟩⟩

theorem create_stepsJob : create "default" "steps" stepsSpec = .ok stepsJob := rfl

theorem first_pod_agrees : AllStates step Agrees ⟨stepsJob, []⟩ [.pod (.createPod 0 0)] := by
  have hguard : AllSteps step Guarded ⟨stepsJob, []⟩ [.pod (.createPod 0 0)] := ⟨rfl, trivial⟩
  refine (sizeRules_agree_iff create_stepsJob hguard).mpr ⟨⟨fun _ _ _ => by decide, fun _ hle => ?_⟩,
    ⟨fun _ hlt => ?_, fun _ _ => by decide⟩⟩
  · exact absurd hle (by decide)
  · exact absurd hlt (by decide)

/-- **A job stalls**: its first pod has succeeded and is still listed, and the job does not ask for the second. -/
theorem stalled_job :
    ¬ ∀ (ns name : CString) (spec : JobSpec) (job : Job), create ns name spec = .ok job → ∀ ops : List Op,
      AllSteps step Guarded ⟨job, []⟩ ops → AllStates step Agrees ⟨job, []⟩ ops := by
  intro h
  have hrun := (h "default" "steps" stepsSpec stepsJob create_stepsJob [.pod (.createPod 0 0), .pod (.markPodSucceeded 0)]
    ⟨rfl, ⟨_, rfl, rfl⟩, trivial⟩).run_mem
  exact absurd (hrun.asks ⟨rfl, rfl, rfl⟩ rfl) (by decide)

end SizeRules

end Sirah.Jobs
