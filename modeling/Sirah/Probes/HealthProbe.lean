import Mathlib.Algebra.GroupWithZero.Nat
import Sirah.Lib.Run
import Sirah.Lib.SplitFirst
import Sirah.Lib.Streak

/-!
# Health probes

Model of the verdicts of `internal/probes/health_probe.c`. A probe counts its successes and its failures in a
row, and a flag says whether it has passed: it is set when the successes reach one threshold and cleared when
the failures reach another. It starts cleared. A pod is alive if the flags of its liveness probes are set.

`pod_probe_manager_add_probe` returns a pointer into the array of probes, and may move the array: a result that is
given through a pointer into an array that is gone is undefined (`none`).

* `NotTooEarly`: the pod is declared dead only if a liveness probe has failed as often in a row as its
  threshold says, and has not succeeded as often in a row since (`FailedSince`).
* `Tracked`: the invariant. The flag of a probe is set if and only if it has succeeded long enough, and not
  failed long enough since. The counters are `uint32_t`, and that they wrap around makes no difference.
* **`not_too_early_iff`**: after every sequence of results the verdict is not too early **iff** each result came
  through a pointer into the array of its time, and some liveness probe has failed since, or every liveness probe
  has succeeded long enough at some time.
* `dead_before_the_first_result`: a new pod is dead.
-/

namespace Sirah.HealthProbe

open Runs Streak

/-! ## Probes -/

/-- `probe_type_t`. -/
inductive ProbeType where
  | startup
  | readiness
  | liveness
  deriving DecidableEq

/-- `probe_result_t`. -/
inductive ProbeResult where
  | success
  | failure
  | timeout
  | error
  deriving DecidableEq

/-- `probe_config_t`, what the verdicts depend on. -/
structure ProbeConfig where
  type : ProbeType
  successThreshold : UInt32
  failureThreshold : UInt32

/-- `probe_state_t`. -/
structure ProbeState where
  lastResult : ProbeResult
  consecutiveSuccesses : UInt32
  consecutiveFailures : UInt32
  passed : Bool

/-- What `memset` leaves. -/
def ProbeState.zero : ProbeState := ⟨.success, 0, 0, false⟩

/-- `pod_probe_update_result`: the new state, and whether the flag changed. -/
def ProbeState.updateResult (config : ProbeConfig) (state : ProbeState) (result : ProbeResult) :
    ProbeState × Bool :=
  if result = .success then
    let successes := state.consecutiveSuccesses + 1
    let changed := decide (successes ≥ config.successThreshold) && !state.passed
    ({ lastResult := result
       consecutiveSuccesses := successes
       consecutiveFailures := 0
       passed := changed || state.passed }, changed)
  else
    let failures := state.consecutiveFailures + 1
    let changed := decide (failures ≥ config.failureThreshold) && state.passed
    ({ lastResult := result
       consecutiveSuccesses := 0
       consecutiveFailures := failures
       passed := !changed && state.passed }, changed)

/-- `probe_instance_t`, and beside it the results it was given. -/
structure ProbeInstance where
  config : ProbeConfig
  state : ProbeState
  results : List ProbeResult

/-- `pod_probe_manager_t`: its probes, and which of the arrays it has had they stand in. -/
structure Manager where
  array : Nat
  probes : List ProbeInstance

/-- A `probe_instance_t *`: a place of one of those arrays. -/
structure Pointer where
  array : Nat
  place : Nat

/-- `pod_probe_manager_create`. -/
def Manager.create : Manager := ⟨0, []⟩

/-- `pod_probe_manager_add_probe`; `moved` says whether `realloc` puts the array elsewhere. -/
def Manager.addProbe (m : Manager) (config : ProbeConfig) (moved : Bool) : Manager × Pointer :=
  let array := if moved then m.array + 1 else m.array
  (⟨array, m.probes ++ [⟨config, .zero, []⟩]⟩, ⟨array, m.probes.length⟩)

/-- Is there a probe behind the pointer? -/
def Manager.live (m : Manager) (p : Pointer) : Bool := p.array == m.array && decide (p.place < m.probes.length)

/-- `pod_probe_update_result`. -/
def Manager.updateResult (m : Manager) (p : Pointer) (result : ProbeResult) : Option Manager :=
  if m.live p then
    some { m with probes := m.probes.modify p.place fun probe =>
      { probe with
        state := (probe.state.updateResult probe.config result).1
        results := probe.results ++ [result] } }
  else none

/-- The probes of a type. -/
def Manager.ofType (m : Manager) (type : ProbeType) : List ProbeInstance :=
  m.probes.filter fun probe => probe.config.type == type

/-- Have all probes of a type passed? -/
def Manager.allPassed (m : Manager) (type : ProbeType) : Bool :=
  (m.ofType type).all fun probe => probe.state.passed

/-- `pod_probe_is_startup_complete`. -/
def Manager.isStartupComplete (m : Manager) : Bool := m.allPassed .startup

/-- `pod_probe_is_ready`. -/
def Manager.isReady (m : Manager) : Bool := m.allPassed .startup && m.allPassed .readiness

/-- `pod_probe_is_alive`. -/
def Manager.isAlive (m : Manager) : Bool := m.allPassed .liveness

/-- `pod_probe_get_state`: of the first probe of the type. -/
def Manager.getState (m : Manager) (type : ProbeType) : Option ProbeState :=
  (m.ofType type).head?.map fun probe => probe.state

/-- `pod_probe_get_stats`: all probes, those that pass and those that do not. -/
def Manager.getStats (m : Manager) : Nat × Nat × Nat :=
  (m.probes.length, m.probes.countP fun probe => probe.state.passed,
    m.probes.countP fun probe => !probe.state.passed)

inductive Op where
  | addProbe (config : ProbeConfig) (moved : Bool)
  | updateResult (p : Pointer) (result : ProbeResult)

def Manager.step (m : Manager) : Op → Option Manager
  | .addProbe config moved => some (m.addProbe config moved).1
  | .updateResult p result => m.updateResult p result

/-- `none` after what is undefined. -/
def step (s : Option Manager) (op : Op) : Option Manager := s.bind fun m => m.step op

/-- Before any call. -/
def start : Option Manager := some .create

/-! ## The flag -/

def isSuccess (result : ProbeResult) : Bool := result == .success

def isFailure (result : ProbeResult) : Bool := !isSuccess result

/-- **The probe has failed** as often in a row as its threshold says, at some time, and has not succeeded
as often in a row as its threshold says since. -/
def FailedSince (probe : ProbeInstance) : Prop :=
  Since isFailure probe.config.failureThreshold.toNat isSuccess probe.config.successThreshold.toNat probe.results

/-- The probe has succeeded long enough at some time. -/
def HasSucceeded (probe : ProbeInstance) : Prop :=
  Reached isSuccess probe.config.successThreshold.toNat probe.results

/-- **What the state says of the results**: the counters are the streaks, up to wrapping around, and the
flag is set if the latest streak that was long enough was one of successes. -/
structure Tracked (probe : ProbeInstance) : Prop where
  success : 1 ≤ probe.config.successThreshold.toNat
  failure : 1 ≤ probe.config.failureThreshold.toNat
  successes : probe.state.consecutiveSuccesses.toNat = trailing isSuccess probe.results % 2 ^ 32
  failures : probe.state.consecutiveFailures.toNat = trailing isFailure probe.results % 2 ^ 32
  passed : probe.state.passed = true ↔ Since isSuccess probe.config.successThreshold.toNat isFailure
    probe.config.failureThreshold.toNat probe.results

variable {m : Manager} {probe : ProbeInstance} {config : ProbeConfig} {state : ProbeState}
  {result : ProbeResult} {ops : List Op}

theorem isFailure_eq (result : ProbeResult) : isFailure result = !isSuccess result := rfl

/-- A success. -/
theorem updateResult_success (h : isSuccess result = true) :
    (state.updateResult config result).1 =
      { lastResult := result
        consecutiveSuccesses := state.consecutiveSuccesses + 1
        consecutiveFailures := 0
        passed := decide (state.consecutiveSuccesses + 1 ≥ config.successThreshold) || state.passed } := by
  unfold ProbeState.updateResult
  rw [if_pos (beq_iff_eq.mp h)]
  cases state.passed <;> simp

/-- Anything else. -/
theorem updateResult_failure (h : isSuccess result = false) :
    (state.updateResult config result).1 =
      { lastResult := result
        consecutiveSuccesses := 0
        consecutiveFailures := state.consecutiveFailures + 1
        passed := !decide (state.consecutiveFailures + 1 ≥ config.failureThreshold) && state.passed } := by
  unfold ProbeState.updateResult
  rw [if_neg (beq_eq_false_iff_ne.mp h)]
  cases state.passed <;> simp

theorem toNat_succ {c : UInt32} {t : Nat} (h : c.toNat = t % 2 ^ 32) : (c + 1).toNat = (t + 1) % 2 ^ 32 := by
  rw [UInt32.toNat_add, h]
  exact Nat.mod_add_mod t (2 ^ 32) 1

/-- **The counter reaches the threshold** when the streak does, unless the streak had reached it before. -/
theorem le_counter_iff {c threshold : UInt32} {t : Nat} (h : c.toNat = t % 2 ^ 32) :
    (c + 1 ≥ threshold ∨ threshold.toNat ≤ t) ↔ threshold.toNat ≤ t + 1 := by
  have hlt := threshold.toNat_lt
  rw [ge_iff_le, UInt32.le_iff_toNat_le, toNat_succ h]
  omega

/-- **A success**: the flag is set if the successes are enough now. -/
theorem Tracked.success_result (h : Tracked probe) (hresult : isSuccess result = true) : Tracked
    { probe with
      state := (probe.state.updateResult probe.config result).1
      results := probe.results ++ [result] } := by
  have hsuccesses : trailing isSuccess (probe.results ++ [result]) = trailing isSuccess probe.results + 1 := by
    rw [trailing_concat, if_pos hresult]
  have hfailures : trailing isFailure (probe.results ++ [result]) = 0 := by
    rw [trailing_concat, isFailure_eq, hresult, Bool.not_true, if_neg Bool.false_ne_true]
  rw [updateResult_success hresult]
  refine ⟨h.success, h.failure, ?_, ?_, ?_⟩
  · exact (toNat_succ h.successes).trans (by rw [hsuccesses])
  · rw [hfailures]
    rfl
  · show (_ || _) = true ↔ Since _ _ _ _ (probe.results ++ [result])
    rw [since_concat isFailure_eq h.success h.failure, hsuccesses, hfailures, Bool.or_eq_true,
      decide_eq_true_iff, h.passed]
    constructor
    · rintro (hge | hsince)
      · exact .inl ((le_counter_iff h.successes).mp (.inl hge))
      · exact .inr ⟨hsince, h.failure⟩
    · rintro (hle | ⟨hsince, -⟩)
      · -- where the counter has wrapped around, the flag was set before
        exact ((le_counter_iff h.successes).mpr hle).imp_right (since_of_le h.failure)
      · exact .inr hsince

/-- **A failure**: the flag is cleared if the failures are enough now. -/
theorem Tracked.failure_result (h : Tracked probe) (hresult : isSuccess result = false) : Tracked
    { probe with
      state := (probe.state.updateResult probe.config result).1
      results := probe.results ++ [result] } := by
  have hsuccesses : trailing isSuccess (probe.results ++ [result]) = 0 := by
    rw [trailing_concat, hresult, if_neg Bool.false_ne_true]
  have hfailures : trailing isFailure (probe.results ++ [result]) = trailing isFailure probe.results + 1 := by
    rw [trailing_concat, isFailure_eq, hresult, Bool.not_false, if_pos rfl]
  rw [updateResult_failure hresult]
  refine ⟨h.success, h.failure, ?_, ?_, ?_⟩
  · rw [hsuccesses]
    rfl
  · exact (toNat_succ h.failures).trans (by rw [hfailures])
  · show (_ && _) = true ↔ Since _ _ _ _ (probe.results ++ [result])
    rw [since_concat isFailure_eq h.success h.failure, hsuccesses, hfailures, Bool.and_eq_true,
      Bool.not_eq_true', decide_eq_false_iff_not, h.passed]
    constructor
    · rintro ⟨hnot, hsince⟩
      refine .inr ⟨hsince, Nat.lt_of_not_le fun hle => ?_⟩
      rcases (le_counter_iff h.failures).mpr hle with hge | hbefore
      · exact hnot hge
      · exact not_since_of_since isFailure_eq h.success h.failure hsince (since_of_le h.success hbefore)
    · rintro (hle | ⟨hsince, hlt⟩)
      · exact absurd (h.success.trans hle) (by decide)
      · refine ⟨fun hge => ?_, hsince⟩
        have hle := (le_counter_iff h.failures).mp (.inl hge)
        omega

/-! ## Runs -/

/-- The thresholds of the probes that are added are at least one. -/
def Op.Positive : Op → Prop
  | .addProbe config _ => 1 ≤ config.successThreshold.toNat ∧ 1 ≤ config.failureThreshold.toNat
  | .updateResult _ _ => True

/-- A result is given through a pointer into the array as it is. -/
def Live (s : Option Manager) : Op → Prop
  | .addProbe _ _ => True
  | .updateResult p _ => ∃ m ∈ s, m.live p = true

/-- Every probe is tracked. -/
def AllTracked (s : Option Manager) : Prop := ∀ m ∈ s, ∀ probe ∈ m.probes, Tracked probe

theorem AllTracked.step {s : Option Manager} {op : Op} (h : AllTracked s) (hop : op.Positive) :
    AllTracked (step s op) := by
  cases s with
  | none => exact nofun
  | some m =>
    have htracked := h m rfl
    cases op with
    | addProbe config moved =>
      intro m' hm' probe hprobe
      cases hm'
      rcases List.mem_append.mp hprobe with hold | hnew
      · exact htracked probe hold
      · rw [List.mem_singleton.mp hnew]
        refine ⟨hop.1, hop.2, rfl, rfl, iff_of_false Bool.false_ne_true fun hsince => ?_⟩
        exact reached_nil hop.1 hsince.reached
    | updateResult p result =>
      intro m' hm'
      change m.updateResult p result = some m' at hm'
      unfold Manager.updateResult at hm'
      split at hm'
      · cases hm'
        refine List.forall_mem_modify htracked fun probe hold => ?_
        cases hresult : isSuccess result with
        | true => exact hold.success_result hresult
        | false => exact hold.failure_result hresult
      · cases hm'

theorem allTracked_run (hops : ∀ op ∈ ops, op.Positive) : AllTracked (run step start ops) := by
  have hcreate : AllTracked start := by
    intro m hm probe hprobe
    cases hm
    exact absurd hprobe List.not_mem_nil
  exact (allStates_of_allSteps (P := fun _ op => op.Positive) (fun _ _ h hop => h.step hop) hcreate
    (allSteps_of_mem hops)).run_mem

theorem run_none : run step none ops = none := by
  induction ops with
  | nil => rfl
  | cons op ops ih => exact ih

/-- **A run is defined, exactly**, if each result comes through a pointer into the array of its time. -/
theorem run_isSome_iff : (run step (some m) ops).isSome = true ↔ AllSteps step Live (some m) ops := by
  induction ops generalizing m with
  | nil => exact iff_of_true rfl trivial
  | cons op ops ih =>
    have hstep : (m.step op).isSome = true ↔ Live (some m) op := by
      cases op with
      | addProbe config moved => exact iff_of_true rfl trivial
      | updateResult p result =>
        simp only [Manager.step, Manager.updateResult, Live, Option.mem_def, Option.some.injEq, exists_eq_left']
        split
        · exact iff_of_true rfl ‹_›
        · exact iff_of_false Bool.false_ne_true ‹_›
    change (run step (m.step op) ops).isSome = true ↔ Live (some m) op ∧ AllSteps step Live (m.step op) ops
    cases hm : m.step op with
    | none =>
      rw [hm] at hstep
      rw [run_none]
      exact iff_of_false Bool.false_ne_true fun h => Bool.false_ne_true (hstep.mpr h.1)
    | some m' =>
      rw [hm] at hstep
      rw [ih, and_iff_right (hstep.mp rfl)]

/-! ## The verdict -/

/-- **The verdict is not too early**: the pod is declared dead only if a liveness probe has failed since. -/
def NotTooEarly (m : Manager) : Prop :=
  m.isAlive = false → ∃ probe ∈ m.ofType .liveness, FailedSince probe

/-- **The flag is cleared** before the first streak of successes, and after one of failures. -/
theorem Tracked.not_passed_iff (h : Tracked probe) :
    probe.state.passed = false ↔ FailedSince probe ∨ ¬ HasSucceeded probe := by
  rw [← Bool.not_eq_true, h.passed]
  constructor
  · intro hnot
    by_cases hreached : HasSucceeded probe
    · exact .inl ((since_or_since isFailure_eq h.success h.failure hreached).resolve_left hnot)
    · exact .inr hreached
  · rintro (hfailed | hnever) hsince
    · exact not_since_of_since isFailure_eq h.success h.failure hsince hfailed
    · exact hnever hsince.reached

theorem isAlive_eq_false_iff (h : ∀ probe ∈ m.probes, Tracked probe) : m.isAlive = false ↔
    ∃ probe ∈ m.ofType .liveness, FailedSince probe ∨ ¬ HasSucceeded probe := by
  unfold Manager.isAlive Manager.allPassed
  rw [List.all_eq_false]
  refine exists_congr fun probe => and_congr_right fun hprobe => ?_
  rw [← (h probe (List.mem_of_mem_filter hprobe)).not_passed_iff, Bool.not_eq_true]

/-- **When the verdict is not too early.** -/
theorem notTooEarly_iff (h : ∀ probe ∈ m.probes, Tracked probe) : NotTooEarly m ↔
    (∃ probe ∈ m.ofType .liveness, FailedSince probe) ∨ ∀ probe ∈ m.ofType .liveness, HasSucceeded probe := by
  unfold NotTooEarly
  rw [isAlive_eq_false_iff h]
  constructor
  · intro hearly
    by_cases hall : ∀ probe ∈ m.ofType .liveness, HasSucceeded probe
    · exact .inr hall
    · simp only [not_forall] at hall
      obtain ⟨probe, hprobe, hnever⟩ := hall
      exact .inl (hearly ⟨probe, hprobe, .inr hnever⟩)
  · rintro (hfailed | hall) ⟨probe, hprobe, hfailed' | hnever⟩
    · exact hfailed
    · exact hfailed
    · exact ⟨probe, hprobe, hfailed'⟩
    · exact absurd (hall probe hprobe) hnever

/-- Some liveness probe has failed since, or every one has succeeded long enough at some time. -/
def Excused (s : Option Manager) : Prop :=
  ∀ m ∈ s, (∃ probe ∈ m.ofType .liveness, FailedSince probe) ∨ ∀ probe ∈ m.ofType .liveness, HasSucceeded probe

/-- **Not too early, exactly.** After every sequence of results, for probes with thresholds of at least one,
there is a verdict and it is not too early **iff** each result came through a pointer into the array of its time,
and some liveness probe has failed since, or every liveness probe has succeeded long enough at some time. -/
theorem not_too_early_iff (hops : ∀ op ∈ ops, op.Positive) :
    (∃ m ∈ run step start ops, NotTooEarly m) ↔
      AllSteps step Live start ops ∧ Excused (run step start ops) := by
  have htracked := allTracked_run hops
  have hdefined : (run step start ops).isSome = true ↔ AllSteps step Live start ops := run_isSome_iff
  rw [← hdefined]
  cases hrun : run step start ops with
  | none => exact iff_of_false (fun ⟨_, hm, _⟩ => by cases hm) fun h => Bool.false_ne_true h.1
  | some m =>
    rw [hrun] at htracked
    simp only [Excused, Option.mem_def, Option.some.injEq, exists_eq_left', Option.isSome_some, true_and, forall_eq']
    exact notTooEarly_iff (htracked m rfl)

/-! ## Before the first result -/

/-- A liveness probe that passes with one success and fails with three failures. -/
def liveness : ProbeConfig := ⟨.liveness, 1, 3⟩

/-- After its first success. -/
theorem not_too_early_after_success :
    ∃ m ∈ run step start [.addProbe liveness false, .updateResult ⟨0, 0⟩ .success], NotTooEarly m := by
  refine (not_too_early_iff ?_).mpr ⟨⟨trivial, ⟨_, rfl, by decide⟩, trivial⟩, ?_⟩
  · intro op hop
    rcases List.mem_cons.mp hop with rfl | hop
    · exact ⟨by decide, by decide⟩
    · rw [List.mem_singleton.mp hop]
      trivial
  · intro m hm
    cases hm
    refine .inr fun probe hprobe => ?_
    rw [List.mem_singleton.mp hprobe]
    exact ⟨[.success], List.prefix_rfl, by decide⟩

/-- **A new pod is dead**: the flag of its probe is not set before the first result. -/
theorem dead_before_the_first_result :
    ¬ ∀ ops : List Op, (∀ op ∈ ops, op.Positive) → AllSteps step Live start ops →
      ∃ m ∈ run step start ops, NotTooEarly m := by
  intro h
  have hops : ∀ op ∈ [Op.addProbe liveness false], op.Positive := by
    intro op hop
    rw [List.mem_singleton.mp hop]
    exact ⟨by decide, by decide⟩
  obtain ⟨m, hm, hearly⟩ := h [.addProbe liveness false] hops ⟨trivial, trivial⟩
  cases hm
  obtain ⟨probe, hprobe, hfailed⟩ := hearly rfl
  rw [List.mem_singleton.mp hprobe] at hfailed
  exact reached_nil (by decide) hfailed.reached

end Sirah.HealthProbe
