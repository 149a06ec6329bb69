import Mathlib.Algebra.Group.Int.Defs
import Mathlib.Algebra.GroupWithZero.Nat
import Mathlib.Data.List.DropRight
import Sirah.Lib.Run

/-!
# The circuit breaker

Model of `internal/resilience/circuit_breaker.c`. The counters are the 32-bit words of the source and wrap
as they do there; a time is the integer that `time` returned to the call, read once, and `rand` what
`rand` returned.

* A breaker is CLOSED, OPEN or HALF_OPEN. A request asks `allowRequest` first and reports how it went to
  `recordSuccess` or `recordFailure`, in whatever state the breaker is by then.
* **`trips_on_consecutive_failures`**: among the results reported to a CLOSED breaker, the first that
  completes `failure_threshold` failures in a row, and none before it, takes it out of CLOSED; and a
  CLOSED breaker has counted fewer, in every run.
* **`half_open_bounded_iff`**: `half_open_requests` stays within its limit along a run **iff** no success
  is reported to a HALF_OPEN breaker that counts no request, short of closing it.
-/

namespace Sirah.Breaker

/-- `circuit_breaker_state_t`. -/
inductive State where
  | closed
  | opened
  | halfOpen
  deriving DecidableEq, Repr

/-- `circuit_breaker_metrics_t`. -/
structure Metrics where
  totalRequests : UInt32
  totalFailures : UInt32
  consecutiveFailures : UInt32
  lastErrorCode : UInt32
  lastFailureTime : Int
  lastStateChange : Int
  deriving DecidableEq, Repr

/-- `circuit_breaker_config_t`. -/
structure Config where
  failureThreshold : UInt32
  successThreshold : UInt32
  timeoutSeconds : UInt32
  maxHalfOpenRequests : UInt32
  useExponentialBackoff : Bool
  initialBackoffMs : UInt32
  maxBackoffMs : UInt32
  deriving DecidableEq, Repr

/-- `circuit_breaker_t`. -/
structure CircuitBreaker where
  state : State
  config : Config
  metrics : Metrics
  currentBackoffMs : UInt32
  nextRetryTime : Int
  halfOpenRequests : UInt32
  halfOpenSuccesses : UInt32
  deriving DecidableEq, Repr

/-- `circuit_breaker_new`. -/
def circuitBreakerNew (config : Config) : CircuitBreaker where
  state := .closed
  config := config
  metrics := ⟨0, 0, 0, 0, 0, 0⟩
  currentBackoffMs := config.initialBackoffMs
  nextRetryTime := 0
  halfOpenRequests := 0
  halfOpenSuccesses := 0

/-! ## The calls -/

/-- The loop that doubles the backoff, at most `failures` times and up to the maximum. -/
def doubleBackoff (maxBackoff : UInt32) : Nat → UInt32 → UInt32
  | 0, backoff => backoff
  | failures + 1, backoff =>
    if backoff < maxBackoff then
      let next := backoff * 2
      if next > maxBackoff then maxBackoff else doubleBackoff maxBackoff failures next
    else backoff

/-- `abs` of the word, taken as a signed one. -/
def absWord (x : UInt32) : UInt32 := if x < 2147483648 then x else 0 - x

/-- `calculate_exponential_backoff`. The percentage is an unsigned word: it is never below zero. -/
def calculateExponentialBackoff (config : Config) (failures : UInt32) (rand : Nat) : UInt32 :=
  if !config.useExponentialBackoff then 0
  else
    let backoff := doubleBackoff config.maxBackoffMs failures.toNat config.initialBackoffMs
    let jitterPercent : UInt32 := UInt32.ofNat (rand % 21) - 10
    let jitter := backoff * absWord jitterPercent / 100
    let backoff :=
      if jitterPercent ≥ 0 then backoff + jitter
      else if backoff > jitter then backoff - jitter else 1
    if backoff > config.maxBackoffMs then config.maxBackoffMs else backoff

/-- `circuit_breaker_record_success`. -/
def recordSuccess (cb : CircuitBreaker) (now : Int) : CircuitBreaker :=
  let cb := { cb with metrics :=
    { cb.metrics with totalRequests := cb.metrics.totalRequests + 1, lastFailureTime := 0 } }
  match cb.state with
  | .closed => { cb with metrics := { cb.metrics with consecutiveFailures := 0 } }
  | .opened => cb
  | .halfOpen =>
    if cb.halfOpenSuccesses + 1 ≥ cb.config.successThreshold then
      { cb with
        state := .closed
        metrics := { cb.metrics with consecutiveFailures := 0, lastStateChange := now }
        halfOpenRequests := 0
        halfOpenSuccesses := 0
        currentBackoffMs := cb.config.initialBackoffMs }
    else
      { cb with
        halfOpenSuccesses := cb.halfOpenSuccesses + 1
        halfOpenRequests := cb.halfOpenRequests - 1 }

/-- `circuit_breaker_record_failure`. -/
def recordFailure (cb : CircuitBreaker) (now : Int) (errorCode : UInt32) (rand : Nat) : CircuitBreaker :=
  let cb := { cb with metrics :=
    { cb.metrics with
      totalRequests := cb.metrics.totalRequests + 1
      totalFailures := cb.metrics.totalFailures + 1
      consecutiveFailures := cb.metrics.consecutiveFailures + 1
      lastErrorCode := errorCode
      lastFailureTime := now } }
  match cb.state with
  | .closed =>
    if cb.metrics.consecutiveFailures ≥ cb.config.failureThreshold then
      { cb with
        state := .opened
        currentBackoffMs := cb.config.initialBackoffMs
        nextRetryTime := now + cb.config.timeoutSeconds.toNat
        metrics := { cb.metrics with lastStateChange := now } }
    else cb
  | .opened => cb
  | .halfOpen =>
    let backoff := calculateExponentialBackoff cb.config cb.metrics.consecutiveFailures rand
    { cb with
      state := .opened
      currentBackoffMs := backoff
      nextRetryTime := now + (backoff / 1000).toNat
      halfOpenRequests := 0
      halfOpenSuccesses := 0
      metrics := { cb.metrics with lastStateChange := now } }

/-- `circuit_breaker_allow_request`. -/
def allowRequest (cb : CircuitBreaker) (now : Int) : Bool × CircuitBreaker :=
  match cb.state with
  | .closed => (true, cb)
  | .opened =>
    if now ≥ cb.nextRetryTime then
      (true, { cb with
        state := .halfOpen
        halfOpenRequests := 0 + 1
        halfOpenSuccesses := 0
        metrics := { cb.metrics with lastStateChange := now } })
    else (false, cb)
  | .halfOpen =>
    if cb.halfOpenRequests < cb.config.maxHalfOpenRequests then
      (true, { cb with halfOpenRequests := cb.halfOpenRequests + 1 })
    else (false, cb)

/-- `circuit_breaker_reset`. -/
def reset (cb : CircuitBreaker) (now : Int) : CircuitBreaker :=
  { cb with
    state := .closed
    metrics := ⟨0, 0, 0, 0, 0, now⟩
    currentBackoffMs := cb.config.initialBackoffMs
    nextRetryTime := 0
    halfOpenRequests := 0
    halfOpenSuccesses := 0 }

/-- A result, reported at a time. -/
inductive Result where
  | success (now : Int)
  | failure (now : Int) (errorCode : UInt32) (rand : Nat)
  deriving DecidableEq, Repr

def Result.isFailure : Result → Bool
  | .success _ => false
  | .failure _ _ _ => true

/-- Report a result. -/
def record (cb : CircuitBreaker) : Result → CircuitBreaker
  | .success now => recordSuccess cb now
  | .failure now errorCode rand => recordFailure cb now errorCode rand

/-- A call that may change the breaker. -/
inductive Call where
  | result (r : Result)
  | allowRequest (now : Int)
  | reset (now : Int)
  deriving DecidableEq, Repr

def step (cb : CircuitBreaker) : Call → CircuitBreaker
  | .result r => record cb r
  | .allowRequest now => (allowRequest cb now).2
  | .reset now => reset cb now

/-! ## What a call leaves alone -/

variable {cb : CircuitBreaker}

theorem recordSuccess_config (now : Int) : (recordSuccess cb now).config = cb.config := by
  unfold recordSuccess
  cases cb.state with
  | closed => rfl
  | opened => rfl
  | halfOpen =>
    dsimp only
    split <;> rfl

theorem recordFailure_config (now : Int) (errorCode : UInt32) (rand : Nat) :
    (recordFailure cb now errorCode rand).config = cb.config := by
  unfold recordFailure
  cases cb.state with
  | closed =>
    dsimp only
    split <;> rfl
  | opened => rfl
  | halfOpen => rfl

theorem allowRequest_config (now : Int) : (allowRequest cb now).2.config = cb.config := by
  unfold allowRequest
  cases cb.state with
  | closed => rfl
  | opened =>
    dsimp only
    split <;> rfl
  | halfOpen =>
    dsimp only
    split <;> rfl

/-- **The configuration is fixed.** -/
theorem step_config (cb : CircuitBreaker) (c : Call) : (step cb c).config = cb.config := by
  cases c with
  | result r =>
    cases r with
    | success now => exact recordSuccess_config now
    | failure now errorCode rand => exact recordFailure_config now errorCode rand
  | allowRequest now => exact allowRequest_config now
  | reset now => rfl

/-! ## Failures in a row -/

/-- The last `n` results are failures. -/
def FailedLast (n : Nat) (rs : List Result) : Prop :=
  ∃ before last, rs = before ++ last ∧ last.length = n ∧ ∀ r ∈ last, r.isFailure = true

/-- The number of failures since the last success. -/
def streak (rs : List Result) : Nat := (rs.rtakeWhile Result.isFailure).length

theorem streak_concat (rs : List Result) (r : Result) :
    streak (rs ++ [r]) = if r.isFailure then streak rs + 1 else 0 := by
  unfold streak
  rw [List.rtakeWhile_concat]
  split <;> simp

theorem failedLast_concat (n : Nat) (rs : List Result) (r : Result) :
    FailedLast (n + 1) (rs ++ [r]) ↔ r.isFailure = true ∧ FailedLast n rs := by
  constructor
  · rintro ⟨before, last, heq, hlen, hall⟩
    obtain ⟨last', x, rfl⟩ := (List.eq_nil_or_concat' last).resolve_left fun h => by simp [h] at hlen
    rw [← List.append_assoc] at heq
    obtain ⟨rfl, hx⟩ := List.append_inj' heq rfl
    cases hx
    refine ⟨hall r (by simp), before, last', rfl, ?_, fun y hy => hall y (by simp [hy])⟩
    simpa using hlen
  · rintro ⟨hr, before, last, rfl, hlen, hall⟩
    refine ⟨before, last ++ [r], by simp, by simp [hlen], ?_⟩
    intro y hy
    rcases List.mem_append.mp hy with hy | hy
    · exact hall y hy
    · rw [List.mem_singleton.mp hy]
      exact hr

/-- The last `n` results are failures exactly if the streak is that long. -/
theorem failedLast_iff (n : Nat) (rs : List Result) : FailedLast n rs ↔ n ≤ streak rs := by
  induction rs using List.reverseRecOn generalizing n with
  | nil =>
    constructor
    · rintro ⟨before, last, heq, hlen, -⟩
      rw [← hlen, (List.append_eq_nil_iff.mp heq.symm).2]
      exact Nat.zero_le _
    · intro h
      exact ⟨[], [], rfl, (Nat.le_zero.mp h).symm, nofun⟩
  | append_singleton rs r ih =>
    cases n with
    | zero => exact iff_of_true ⟨rs ++ [r], [], by simp, rfl, nofun⟩ (Nat.zero_le _)
    | succ n =>
      rw [failedLast_concat, ih, streak_concat]
      cases r.isFailure <;> simp

/-- No result so far completed `n` failures in a row. -/
def Untripped (n : Nat) (rs : List Result) : Prop := ∀ sofar, sofar <+: rs → ¬ FailedLast n sofar

theorem untripped_concat (n : Nat) (rs : List Result) (r : Result) :
    Untripped n (rs ++ [r]) ↔ Untripped n rs ∧ ¬ FailedLast n (rs ++ [r]) := by
  unfold Untripped
  simp only [List.prefix_concat_iff]
  constructor
  · intro h
    exact ⟨fun sofar hs => h sofar (.inr hs), h _ (.inl rfl)⟩
  · rintro ⟨h, hlast⟩ sofar (rfl | hs)
    · exact hlast
    · exact h sofar hs

/-- A failure reported to a CLOSED breaker. -/
theorem recordFailure_closed (h : cb.state = .closed) (now : Int) (errorCode : UInt32) (rand : Nat) :
    (recordFailure cb now errorCode rand).metrics.consecutiveFailures =
        cb.metrics.consecutiveFailures + 1 ∧
      (recordFailure cb now errorCode rand).state =
        if cb.metrics.consecutiveFailures + 1 ≥ cb.config.failureThreshold then .opened else .closed := by
  unfold recordFailure
  rw [h]
  dsimp only
  split
  · exact ⟨rfl, rfl⟩
  · exact ⟨rfl, rfl⟩

/-- Results alone do not take a breaker out of OPEN. -/
theorem record_opened (h : cb.state = .opened) (r : Result) : (record cb r).state = .opened := by
  cases r with
  | success now =>
    unfold record recordSuccess
    rw [h]
  | failure now errorCode rand =>
    unfold record recordFailure
    rw [h]

theorem record_config (r : Result) : (record cb r).config = cb.config := step_config cb (.result r)

theorem toNat_succ {a f : UInt32} (h : a.toNat < f.toNat) : (a + 1).toNat = a.toNat + 1 := by
  have := f.toNat_lt
  rw [UInt32.toNat_add]
  exact Nat.mod_eq_of_lt (by simp; omega)

/-- A success reported to a CLOSED breaker. -/
theorem recordSuccess_closed (h : cb.state = .closed) (now : Int) :
    (recordSuccess cb now).metrics.consecutiveFailures = 0 ∧ (recordSuccess cb now).state = .closed := by
  unfold recordSuccess
  rw [h]
  exact ⟨rfl, rfl⟩

/-- **The run**: the breaker counts the streak as long as it is not complete, and is OPEN after. -/
theorem run_record (hclosed : cb.state = .closed) (hzero : cb.metrics.consecutiveFailures = 0)
    (hf : 1 ≤ cb.config.failureThreshold) (rs : List Result) :
    (Runs.run record cb rs).config = cb.config ∧
      ((Untripped cb.config.failureThreshold.toNat rs ∧ (Runs.run record cb rs).state = .closed ∧
          (Runs.run record cb rs).metrics.consecutiveFailures.toNat = streak rs) ∨
        (¬ Untripped cb.config.failureThreshold.toNat rs ∧ (Runs.run record cb rs).state = .opened)) := by
  have hf' : 0 < cb.config.failureThreshold.toNat := UInt32.le_iff_toNat_le.mp hf
  induction rs using List.reverseRecOn with
  | nil =>
    refine ⟨rfl, .inl ⟨?_, hclosed, by rw [Runs.run_nil, hzero]; rfl⟩⟩
    intro sofar hsofar
    rw [List.prefix_nil.mp hsofar, failedLast_iff]
    exact Nat.not_le.mpr hf'
  | append_singleton rs r ih =>
    obtain ⟨hconfig, ih⟩ := ih
    rw [Runs.run_append, Runs.run_cons, Runs.run_nil, record_config, untripped_concat, failedLast_iff,
      streak_concat]
    refine ⟨hconfig, ?_⟩
    rcases ih with ⟨hun, hstate, hcount⟩ | ⟨htripped, hstate⟩
    · cases r with
      | success now =>
        obtain ⟨hcount', hstate'⟩ := recordSuccess_closed hstate now
        exact .inl ⟨⟨hun, Nat.not_le.mpr hf'⟩, hstate', congrArg UInt32.toNat hcount'⟩
      | failure now errorCode rand =>
        obtain ⟨hcount', hstate'⟩ := recordFailure_closed hstate now errorCode rand
        have hshort : streak rs < cb.config.failureThreshold.toNat :=
          Nat.not_le.mp (mt (failedLast_iff _ _).mpr (hun rs List.prefix_rfl))
        have hsucc := toNat_succ (hcount ▸ hshort)
        rw [hconfig] at hstate'
        simp only [ge_iff_le, UInt32.le_iff_toNat_le, hsucc, hcount] at hstate'
        by_cases htrip : cb.config.failureThreshold.toNat ≤ streak rs + 1
        · rw [if_pos htrip] at hstate'
          exact .inr ⟨fun h => h.2 htrip, hstate'⟩
        · rw [if_neg htrip] at hstate'
          exact .inl ⟨⟨hun, htrip⟩, hstate', (congrArg UInt32.toNat hcount').trans (hsucc.trans (by rw [hcount]; rfl))⟩
    · exact .inr ⟨fun h => htripped h.1, record_opened hstate r⟩

/-- A CLOSED breaker has counted fewer failures than it takes. -/
def Below (cb : CircuitBreaker) : Prop :=
  cb.state = .closed → cb.metrics.consecutiveFailures < cb.config.failureThreshold

/-- A breaker that a success leaves CLOSED has counted nothing. -/
theorem recordSuccess_leaves_closed (now : Int) (h : (recordSuccess cb now).state = .closed) :
    (recordSuccess cb now).metrics.consecutiveFailures = 0 := by
  unfold recordSuccess at h ⊢
  cases hs : cb.state with
  | closed => rfl
  | opened =>
    rw [hs] at h
    cases h
  | halfOpen =>
    rw [hs] at h
    dsimp only at h ⊢
    split at h
    · next hclose => rw [if_pos hclose]
    · cases h

/-- A breaker that a failure leaves CLOSED was CLOSED and is still below the threshold. -/
theorem recordFailure_leaves_closed (now : Int) (errorCode : UInt32) (rand : Nat)
    (h : (recordFailure cb now errorCode rand).state = .closed) :
    (recordFailure cb now errorCode rand).metrics.consecutiveFailures < cb.config.failureThreshold := by
  cases hs : cb.state with
  | closed =>
    obtain ⟨hcount, hstate⟩ := recordFailure_closed hs now errorCode rand
    rw [hstate] at h
    split at h
    · cases h
    · next hlt =>
      rw [hcount]
      exact UInt32.not_le.mp hlt
  | opened =>
    have hopened := record_opened hs (.failure now errorCode rand)
    exact absurd (h.symm.trans hopened) (by decide)
  | halfOpen =>
    unfold recordFailure at h
    rw [hs] at h
    cases h

/-- A breaker that a request leaves CLOSED is as it was. -/
theorem allowRequest_leaves_closed (now : Int) (h : (allowRequest cb now).2.state = .closed) :
    cb.state = .closed ∧ (allowRequest cb now).2 = cb := by
  unfold allowRequest at h ⊢
  cases hs : cb.state with
  | closed => exact ⟨rfl, rfl⟩
  | opened =>
    rw [hs] at h
    dsimp only at h
    split at h
    · cases h
    · rw [hs] at h
      cases h
  | halfOpen =>
    rw [hs] at h
    dsimp only at h
    split at h
    · cases h
    · rw [hs] at h
      cases h

/-- **The step**: every call keeps a CLOSED breaker below its threshold. -/
theorem step_below (cb : CircuitBreaker) (c : Call)
    (h : 1 ≤ cb.config.failureThreshold ∧ Below cb) :
    1 ≤ (step cb c).config.failureThreshold ∧ Below (step cb c) := by
  obtain ⟨hf, hbelow⟩ := h
  have hf' : 0 < cb.config.failureThreshold := UInt32.le_iff_toNat_le.mp hf
  refine ⟨(step_config cb c).symm ▸ hf, ?_⟩
  unfold Below
  rw [step_config]
  intro hclosed
  cases c with
  | result r =>
    cases r with
    | success now =>
      have hzero := recordSuccess_leaves_closed now hclosed
      exact hzero.symm ▸ hf'
    | failure now errorCode rand => exact recordFailure_leaves_closed now errorCode rand hclosed
  | allowRequest now =>
    obtain ⟨hclosed', hsame⟩ := allowRequest_leaves_closed now hclosed
    have hcount : (step cb (.allowRequest now)).metrics = cb.metrics := congrArg CircuitBreaker.metrics hsame
    rw [hcount]
    exact hbelow hclosed'
  | reset now => exact hf'

/-- **The breaker trips exactly on consecutive failures.** From a CLOSED breaker without consecutive
failures, the results reported leave it CLOSED exactly as long as none of them completed
`failure_threshold` failures in a row; and in every run of calls a CLOSED breaker has counted fewer. -/
theorem trips_on_consecutive_failures (cb : CircuitBreaker) (hclosed : cb.state = .closed)
    (hzero : cb.metrics.consecutiveFailures = 0) (hf : 1 ≤ cb.config.failureThreshold) :
    (∀ rs : List Result, (Runs.run record cb rs).state = .closed ↔
      ∀ sofar, sofar <+: rs → ¬ FailedLast cb.config.failureThreshold.toNat sofar) ∧
    ∀ calls : List Call, Runs.AllStates step
      (fun s => s.state = .closed → s.metrics.consecutiveFailures < cb.config.failureThreshold) cb calls := by
  constructor
  · intro rs
    obtain ⟨-, ⟨hun, hstate, -⟩ | ⟨htripped, hstate⟩⟩ := run_record hclosed hzero hf rs
    · exact iff_of_true hstate hun
    · exact iff_of_false (fun h => absurd (h.symm.trans hstate) (by decide)) htripped
  · intro calls
    have hinit : cb.config = cb.config ∧ 1 ≤ cb.config.failureThreshold ∧ Below cb := by
      refine ⟨rfl, hf, fun _ => ?_⟩
      rw [hzero]
      exact UInt32.le_iff_toNat_le.mp hf
    refine (Runs.allStates_of_step (I := fun s => s.config = cb.config ∧
      1 ≤ s.config.failureThreshold ∧ Below s) ?_ hinit).imp ?_
    · rintro s c ⟨hconfig, hs⟩
      exact ⟨(step_config s c).trans hconfig, step_below s c hs⟩
    · rintro s ⟨hconfig, -, hbelow⟩ hs
      exact hconfig ▸ hbelow hs

/-- Three failures open the breaker, whatever came before the success. -/
def patient : Config := ⟨3, 2, 30, 1, true, 100, 32000⟩

/-- Two failures, a success and two failures leave it CLOSED. -/
theorem patient_stays_closed : (Runs.run record (circuitBreakerNew patient)
    [.failure 1 500 0, .failure 2 500 0, .success 3, .failure 4 500 0, .failure 5 500 0]).state = .closed := by
  refine ((trips_on_consecutive_failures _ rfl rfl (by decide)).1 _).mpr ?_
  intro sofar hsofar
  have hlt : ∀ pre ∈ [Result.failure 1 500 0, .failure 2 500 0, .success 3, .failure 4 500 0,
      .failure 5 500 0].inits, ¬ 3 ≤ streak pre := by decide
  rw [failedLast_iff]
  exact hlt sofar ((List.mem_inits _ _).mpr hsofar)

/-! ## Requests in HALF_OPEN -/

/-- The requests counted in HALF_OPEN are within their limit. -/
def Bounded (cb : CircuitBreaker) : Prop := cb.halfOpenRequests ≤ cb.config.maxHalfOpenRequests

/-- The call is no success that a HALF_OPEN breaker, counting no request, has to take off: unless it
closes the breaker, or the limit is the largest word. -/
def NoStraggler (cb : CircuitBreaker) (c : Call) : Prop :=
  ∀ now, c = .result (.success now) → cb.state = .halfOpen →
    cb.halfOpenRequests ≠ 0 ∨ cb.halfOpenSuccesses + 1 ≥ cb.config.successThreshold ∨
      cb.config.maxHalfOpenRequests.toNat = 2 ^ 32 - 1

theorem bounded_recordFailure (h : Bounded cb) (now : Int) (errorCode : UInt32) (rand : Nat) :
    Bounded (recordFailure cb now errorCode rand) := by
  unfold Bounded recordFailure at *
  cases cb.state with
  | closed =>
    dsimp only
    split <;> exact h
  | opened => exact h
  | halfOpen => exact UInt32.zero_le

theorem bounded_allowRequest (hmax : 1 ≤ cb.config.maxHalfOpenRequests) (h : Bounded cb) (now : Int) :
    Bounded (allowRequest cb now).2 := by
  unfold Bounded allowRequest at *
  cases cb.state with
  | closed => exact h
  | opened =>
    dsimp only
    split
    · exact hmax
    · exact h
  | halfOpen =>
    dsimp only
    split
    · next hlt =>
      rw [UInt32.le_iff_toNat_le, toNat_succ (UInt32.lt_iff_toNat_lt.mp hlt)]
      exact UInt32.lt_iff_toNat_lt.mp hlt
    · exact h

/-- A success keeps the bound exactly when it is no straggler. -/
theorem bounded_recordSuccess_iff (h : Bounded cb) (now : Int) :
    Bounded (recordSuccess cb now) ↔ NoStraggler cb (.result (.success now)) := by
  unfold Bounded NoStraggler recordSuccess at *
  cases hs : cb.state with
  | closed => exact iff_of_true h fun _ _ hhalf => nomatch hhalf
  | opened => exact iff_of_true h fun _ _ hhalf => nomatch hhalf
  | halfOpen =>
    dsimp only
    split
    · next hclose => exact iff_of_true UInt32.zero_le fun _ _ _ => .inr (.inl hclose)
    · next hclose =>
      have hle := UInt32.le_iff_toNat_le.mp h
      have hlt := cb.config.maxHalfOpenRequests.toNat_lt
      have hlt' := cb.halfOpenRequests.toNat_lt
      have hone : (1 : UInt32).toNat = 1 := rfl
      have hzero : cb.halfOpenRequests ≠ 0 ↔ cb.halfOpenRequests.toNat ≠ 0 := by
        rw [Ne, ← UInt32.toNat_inj]
        rfl
      dsimp only
      rw [UInt32.le_iff_toNat_le, UInt32.toNat_sub, hone]
      constructor
      · intro hwrap _ _ _
        rw [hzero]
        by_cases hreq : cb.halfOpenRequests.toNat = 0
        · exact .inr (.inr (by omega))
        · exact .inl hreq
      · intro hno
        rcases hno now rfl rfl with hreq | hclose' | hmax
        · rw [hzero] at hreq
          omega
        · exact absurd hclose' hclose
        · omega

/-- **The step**: a call keeps the bound exactly when it is no straggler. -/
theorem step_bounded_iff (hmax : 1 ≤ cb.config.maxHalfOpenRequests) (h : Bounded cb) (c : Call) :
    Bounded (step cb c) ↔ NoStraggler cb c := by
  cases c with
  | result r =>
    cases r with
    | success now => exact bounded_recordSuccess_iff h now
    | failure now errorCode rand =>
      exact iff_of_true (bounded_recordFailure h now errorCode rand) fun _ heq => nomatch heq
  | allowRequest now => exact iff_of_true (bounded_allowRequest hmax h now) fun _ heq => nomatch heq
  | reset now => exact iff_of_true UInt32.zero_le fun _ heq => nomatch heq

/-- **Half-open admission, exactly.** From a new breaker that admits at least one request in HALF_OPEN,
`half_open_requests` stays within `max_half_open_requests` along a run **iff** none of its calls is a
straggler. -/
theorem half_open_bounded_iff (config : Config) (hmax : 1 ≤ config.maxHalfOpenRequests)
    (calls : List Call) :
    Runs.AllStates step Bounded (circuitBreakerNew config) calls ↔
      Runs.AllSteps step NoStraggler (circuitBreakerNew config) calls :=
  Runs.allStates_iff_allSteps (I := fun cb => 1 ≤ cb.config.maxHalfOpenRequests)
    (fun cb c h _ => (step_config cb c).symm ▸ h) (fun _ c h _ hb => step_bounded_iff h hb c) hmax
    UInt32.zero_le Runs.allSteps_true

/-- One failure opens the breaker; three successes close it again. -/
def eager : Config := ⟨1, 3, 0, 1, true, 100, 32000⟩

/-- A probe that succeeds, and a failure after it. -/
theorem eager_bounded : Runs.AllStates step Bounded (circuitBreakerNew eager)
    [.allowRequest 1, .result (.failure 2 500 0), .allowRequest 3, .result (.success 4), .allowRequest 5,
      .result (.failure 6 500 0)] := by
  refine (half_open_bounded_iff eager (by decide) _).mpr ⟨?_, ?_, ?_, ?_, ?_, ?_, trivial⟩
  all_goals
    intro now hcall _
    first
      | exact .inl (by decide)
      | exact nomatch hcall

/-! ## Two successes of old requests -/

/-- A breaker with the number of its admitted requests whose result is not reported yet. -/
def track (s : CircuitBreaker × Nat) (c : Call) : CircuitBreaker × Nat :=
  match c with
  | .result r => (record s.1 r, s.2 - 1)
  | .allowRequest now =>
    ((allowRequest s.1 now).2, if (allowRequest s.1 now).1 then s.2 + 1 else s.2)
  | .reset now => (reset s.1 now, s.2)

/-- A result is reported only for a request that was admitted. -/
def Answers (s : CircuitBreaker × Nat) (c : Call) : Prop := ∀ r, c = .result r → 0 < s.2

/-- Three requests are admitted; one fails. While a probe runs, the other two succeed. -/
def oldSuccesses : List Call :=
  [.allowRequest 1, .allowRequest 1, .allowRequest 1, .result (.failure 2 500 0), .allowRequest 3,
    .result (.success 4), .result (.success 4)]

/-- **A count below zero**: the second late success takes a request off a count of none. -/
theorem old_successes_wrap : ¬ ∀ (config : Config) (calls : List Call), 1 ≤ config.maxHalfOpenRequests →
    Runs.AllSteps track Answers (circuitBreakerNew config, 0) calls →
      Runs.AllStates track (fun s => Bounded s.1) (circuitBreakerNew config, 0) calls := by
  intro h
  have hanswers : Runs.AllSteps track Answers (circuitBreakerNew eager, 0) oldSuccesses := by
    refine ⟨?_, ?_, ?_, ?_, ?_, ?_, ?_, trivial⟩
    all_goals
      intro r hr
      first
        | decide
        | exact nomatch hr
  have hbound := (h eager oldSuccesses (by decide) hanswers).run_mem
  unfold Bounded at hbound
  exact absurd hbound (by decide)

end Sirah.Breaker
