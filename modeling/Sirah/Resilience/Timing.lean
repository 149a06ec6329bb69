import Mathlib.Algebra.Order.Ring.Int
import Sirah.Resilience.CircuitBreaker

/-!
# How long the circuit breaker stays open

`internal/resilience/circuit_breaker.c` computes the end of an OPEN period in two ways: a CLOSED breaker
that trips waits `timeout_seconds`; a HALF_OPEN one whose probe fails waits `current_backoff_ms / 1000`,
and without exponential backoff not at all.

* `Timed` is a breaker in a run: the clock, the time of the last entry into OPEN, and the waiting times of
  the OPEN periods of this outage, the last one first.
* `backoffFloor`: what the backoff is at least, after so many consecutive failures.
* **`stays_open`**: along a run whose clock does not go back and whose failures fit their counter, no
  request is admitted before the timeout and no wait is shorter than the one before, if the backoff after
  `failure_threshold + 1` failures covers the timeout and is computed within 32 bits.
-/

namespace Sirah.Breaker

/-! ## The backoff -/

/-- `initial_backoff_ms`, doubled `n` times and capped; 0 without exponential backoff. -/
def backoffFloor (config : Config) (n : Nat) : Nat :=
  if config.useExponentialBackoff then
    min (config.initialBackoffMs.toNat * 2 ^ n) config.maxBackoffMs.toNat
  else 0

/-- The backoff is computed within 32 bits. -/
def InRange (config : Config) : Prop :=
  config.useExponentialBackoff = true →
    config.initialBackoffMs.toNat ≤ 2 ^ 31 ∧ config.maxBackoffMs.toNat ≤ 2 ^ 31

theorem backoffFloor_mono (config : Config) {m n : Nat} (h : m ≤ n) :
    backoffFloor config m ≤ backoffFloor config n := by
  unfold backoffFloor
  split
  · have hpow : config.initialBackoffMs.toNat * 2 ^ m ≤ config.initialBackoffMs.toNat * 2 ^ n :=
      Nat.mul_le_mul_left _ (Nat.pow_le_pow_right (by decide) h)
    omega
  · exact le_rfl

/-- **The loop** doubles up to the maximum, if no doubling below the maximum wraps. -/
theorem doubleBackoff_of_fits {maxBackoff : UInt32} (n : Nat) (b : UInt32)
    (hfits : ∀ i < n, b.toNat * 2 ^ i < maxBackoff.toNat → b.toNat * 2 ^ (i + 1) < 2 ^ 32) :
    (doubleBackoff maxBackoff n b).toNat =
      if b.toNat < maxBackoff.toNat then min (b.toNat * 2 ^ n) maxBackoff.toNat else b.toNat := by
  induction n generalizing b with
  | zero =>
    unfold doubleBackoff
    split
    · omega
    · rfl
  | succ n ih =>
    unfold doubleBackoff
    by_cases hlt : b < maxBackoff
    · have hlt' := UInt32.lt_iff_toNat_lt.mp hlt
      have hdouble : (b * 2).toNat = b.toNat * 2 := by
        rw [UInt32.toNat_mul]
        refine Nat.mod_eq_of_lt ?_
        simpa using hfits 0 (Nat.succ_pos n) (by simpa using hlt')
      have hpow : ∀ i, b.toNat * 2 ^ (i + 1) = b.toNat * 2 * 2 ^ i := by
        intro i
        rw [Nat.pow_succ', Nat.mul_assoc]
      have hone : b.toNat * 2 ≤ b.toNat * 2 * 2 ^ n := Nat.le_mul_of_pos_right _ (Nat.two_pow_pos n)
      rw [if_pos hlt, if_pos hlt', hpow]
      dsimp only
      by_cases hnext : b * 2 > maxBackoff
      · have hnext' := UInt32.lt_iff_toNat_lt.mp hnext
        rw [if_pos hnext]
        omega
      · have hnext' : ¬ maxBackoff.toNat < (b * 2).toNat := mt UInt32.lt_iff_toNat_lt.mpr hnext
        have hrec := ih (b * 2) fun i hi => by
          rw [hdouble, ← hpow, ← hpow]
          exact hfits (i + 1) (Nat.succ_lt_succ hi)
        rw [if_neg hnext, hrec, hdouble]
        split <;> omega
    · rw [if_neg hlt, if_neg (mt UInt32.lt_iff_toNat_lt.mpr hlt)]

/-- **The loop** doubles up to the maximum; a start above the maximum stays. -/
theorem doubleBackoff_toNat {maxBackoff : UInt32} (hmax : maxBackoff.toNat ≤ 2 ^ 31) (n : Nat)
    (b : UInt32) : (doubleBackoff maxBackoff n b).toNat =
      if b.toNat < maxBackoff.toNat then min (b.toNat * 2 ^ n) maxBackoff.toNat else b.toNat := by
  refine doubleBackoff_of_fits n b fun i _ hlt => ?_
  rw [Nat.pow_succ, ← Nat.mul_assoc]
  omega

theorem absWord_jitter (rand : Nat) : (absWord (UInt32.ofNat (rand % 21) - 10)).toNat ≤ 10 := by
  have hall : ∀ r < 21, (absWord (UInt32.ofNat r - 10)).toNat ≤ 10 := by decide
  exact hall _ (Nat.mod_lt _ (by decide))

/-- A tenth at most is added, without leaving the word. -/
theorem jittered_toNat {b percent : UInt32} (hb : b.toNat ≤ 2 ^ 31) (hp : percent.toNat ≤ 10) :
    b.toNat ≤ (b + b * percent / 100).toNat ∧ (b + b * percent / 100).toNat ≤ 2 * b.toNat := by
  have hmul : b.toNat * percent.toNat % 2 ^ 32 ≤ b.toNat * 10 :=
    (Nat.mod_le _ _).trans (Nat.mul_le_mul_left _ hp)
  have hjitter : (b * percent / 100).toNat ≤ b.toNat * 10 / 100 := by
    rw [UInt32.toNat_div, UInt32.toNat_mul]
    exact Nat.div_le_div_right hmul
  have hsum : (b + b * percent / 100).toNat = b.toNat + (b * percent / 100).toNat := by
    rw [UInt32.toNat_add]
    exact Nat.mod_eq_of_lt (by omega)
  omega

/-- **The backoff** is at least its floor, and at most the floor after one more failure. -/
theorem backoff_bounds {config : Config} (hrange : InRange config) (failures : UInt32) (rand : Nat) :
    backoffFloor config failures.toNat ≤ (calculateExponentialBackoff config failures rand).toNat ∧
      (calculateExponentialBackoff config failures rand).toNat ≤
        backoffFloor config (failures.toNat + 1) := by
  unfold backoffFloor calculateExponentialBackoff
  cases hexp : config.useExponentialBackoff with
  | false => exact ⟨le_rfl, le_rfl⟩
  | true =>
    obtain ⟨hinitial, hmax⟩ := hrange hexp
    have hloop := doubleBackoff_toNat hmax failures.toNat config.initialBackoffMs
    have hpow : config.initialBackoffMs.toNat * 2 ^ (failures.toNat + 1) =
        2 * (config.initialBackoffMs.toNat * 2 ^ failures.toNat) := by
      rw [Nat.pow_succ']
      exact Nat.mul_left_comm _ _ _
    have hone : config.initialBackoffMs.toNat ≤ config.initialBackoffMs.toNat * 2 ^ failures.toNat :=
      Nat.le_mul_of_pos_right _ (Nat.two_pow_pos _)
    generalize doubleBackoff config.maxBackoffMs failures.toNat config.initialBackoffMs = b at hloop ⊢
    have hb : b.toNat ≤ 2 ^ 31 := by
      rw [hloop]
      split <;> omega
    obtain ⟨hlow, hhigh⟩ := jittered_toNat hb (absWord_jitter rand)
    simp only [Bool.not_true, Bool.false_eq_true, if_false, if_true, ge_iff_le, UInt32.zero_le]
    rw [hpow]
    split
    · next hcap =>
      have hcap' := UInt32.lt_iff_toNat_lt.mp hcap
      split at hloop <;> omega
    · next hcap =>
      have hcap' : ¬ config.maxBackoffMs.toNat <
          (b + b * absWord (UInt32.ofNat (rand % 21) - 10) / 100).toNat :=
        mt UInt32.lt_iff_toNat_lt.mpr hcap
      split at hloop <;> omega

/-! ## What a call can do -/

/-- The time of a call. -/
def Call.now : Call → Int
  | .result (.success now) => now
  | .result (.failure now _ _) => now
  | .allowRequest now => now
  | .reset now => now

def Call.isFailure : Call → Bool
  | .result r => r.isFailure
  | _ => false

def Call.isReset : Call → Bool
  | .reset _ => true
  | _ => false

/-- What becomes of the state, the failure count and the end of the OPEN period. -/
inductive Move (cb : CircuitBreaker) (c : Call) (cb' : CircuitBreaker) : Prop where
  /-- The breaker is CLOSED after the call; from OPEN this is a reset. -/
  | closed (hfrom : cb.state = .opened → c.isReset = true) (hto : cb'.state = .closed)
  /-- A failure completes the threshold. -/
  | trip (hcall : c.isFailure = true ∧ c.isReset = false) (hfrom : cb.state = .closed)
      (hto : cb'.state = .opened)
      (hcount : cb'.metrics.consecutiveFailures = cb.metrics.consecutiveFailures + 1)
      (hthreshold : cb.config.failureThreshold ≤ cb.metrics.consecutiveFailures + 1)
      (hretry : cb'.nextRetryTime = c.now + cb.config.timeoutSeconds.toNat)
  /-- The breaker stays OPEN, counting late failures. -/
  | wait (hcall : c.isReset = false) (hfrom : cb.state = .opened) (hto : cb'.state = .opened)
      (hcount : cb'.metrics.consecutiveFailures = cb.metrics.consecutiveFailures ∨
        c.isFailure = true ∧ cb'.metrics.consecutiveFailures = cb.metrics.consecutiveFailures + 1)
      (hretry : cb'.nextRetryTime = cb.nextRetryTime)
  /-- The OPEN period is over and a request probes the service. -/
  | probe (hcall : c.isReset = false) (hfrom : cb.state = .opened) (hto : cb'.state = .halfOpen)
      (hcount : cb'.metrics.consecutiveFailures = cb.metrics.consecutiveFailures)
      (hretry : cb.nextRetryTime ≤ c.now)
  /-- The breaker stays HALF_OPEN. -/
  | test (hcall : c.isReset = false) (hfrom : cb.state = .halfOpen) (hto : cb'.state = .halfOpen)
      (hcount : cb'.metrics.consecutiveFailures = cb.metrics.consecutiveFailures)
  /-- A failure in HALF_OPEN. -/
  | fail (hcall : c.isFailure = true ∧ c.isReset = false) (hfrom : cb.state = .halfOpen)
      (hto : cb'.state = .opened)
      (hcount : cb'.metrics.consecutiveFailures = cb.metrics.consecutiveFailures + 1)
      (hretry : ∃ rand, cb'.nextRetryTime = c.now +
        (calculateExponentialBackoff cb.config (cb.metrics.consecutiveFailures + 1) rand / 1000).toNat)

theorem move_recordSuccess (cb : CircuitBreaker) (now : Int) :
    Move cb (.result (.success now)) (recordSuccess cb now) := by
  unfold recordSuccess
  cases hs : cb.state with
  | closed => exact .closed (fun h => absurd (hs.symm.trans h) (by decide)) rfl
  | opened => exact .wait rfl hs rfl (.inl rfl) rfl
  | halfOpen =>
    dsimp only
    split
    · exact .closed (fun h => absurd (hs.symm.trans h) (by decide)) rfl
    · exact .test rfl hs rfl rfl

theorem move_recordFailure (cb : CircuitBreaker) (now : Int) (errorCode : UInt32) (rand : Nat) :
    Move cb (.result (.failure now errorCode rand)) (recordFailure cb now errorCode rand) := by
  unfold recordFailure
  cases hs : cb.state with
  | closed =>
    dsimp only
    split
    · next hthreshold => exact .trip ⟨rfl, rfl⟩ hs rfl rfl hthreshold rfl
    · exact .closed (fun h => absurd (hs.symm.trans h) (by decide)) rfl
  | opened => exact .wait rfl hs rfl (.inr ⟨rfl, rfl⟩) rfl
  | halfOpen => exact .fail ⟨rfl, rfl⟩ hs rfl rfl ⟨rand, rfl⟩

theorem move_allowRequest (cb : CircuitBreaker) (now : Int) :
    Move cb (.allowRequest now) (allowRequest cb now).2 := by
  unfold allowRequest
  cases hs : cb.state with
  | closed => exact .closed (fun h => absurd (hs.symm.trans h) (by decide)) hs
  | opened =>
    dsimp only
    split
    · next hretry => exact .probe rfl hs rfl rfl hretry
    · exact .wait rfl hs hs (.inl rfl) rfl
  | halfOpen =>
    dsimp only
    split
    · exact .test rfl hs rfl rfl
    · exact .test rfl hs hs rfl

theorem step_move (cb : CircuitBreaker) (c : Call) : Move cb c (step cb c) := by
  cases c with
  | result r =>
    cases r with
    | success now => exact move_recordSuccess cb now
    | failure now errorCode rand => exact move_recordFailure cb now errorCode rand
  | allowRequest now => exact move_allowRequest cb now
  | reset now => exact .closed (fun _ => rfl) rfl

/-! ## Runs in time -/

/-- A breaker in a run. -/
structure Timed where
  breaker : CircuitBreaker
  /-- The time of the last call. -/
  clock : Int
  /-- When the breaker last entered OPEN, if it was not reset since. -/
  openedAt : Option Int
  /-- The waiting times of the OPEN periods of this outage, the last one first. -/
  waits : List Int

/-- A new breaker at a time. -/
def timedNew (config : Config) (now : Int) : Timed := ⟨circuitBreakerNew config, now, none, []⟩

/-- The call takes the breaker into OPEN. -/
def enters (cb cb' : CircuitBreaker) : Bool := cb.state != .opened && cb'.state == .opened

/-- A call, with the record of the OPEN periods. A breaker that enters OPEN waits from the call to the
time `allowRequest` admits a request again. -/
def timedStep (s : Timed) (c : Call) : Timed :=
  let cb := step s.breaker c
  { breaker := cb
    clock := c.now
    openedAt := if c.isReset then none else if enters s.breaker cb then some c.now else s.openedAt
    waits := if cb.state == .closed then []
      else if enters s.breaker cb then (cb.nextRetryTime - c.now) :: s.waits else s.waits }

/-- **What an open breaker promises**: no request is admitted before the timeout has passed since the last
entry into OPEN, and the last OPEN period is no shorter than the one before in this outage. -/
structure Punctual (s : Timed) : Prop where
  timeout : ∀ t, s.openedAt = some t → ∀ now, s.clock ≤ now →
    now < t + s.breaker.config.timeoutSeconds.toNat → (allowRequest s.breaker now).1 = false
  growing : ∀ w w' rest, s.waits = w :: w' :: rest → w' ≤ w

/-- The clock does not go back and the failures fit their counter. -/
structure Regular (s : Timed) (c : Call) : Prop where
  clock : s.clock ≤ c.now
  fits : c.isFailure = true → s.breaker.metrics.consecutiveFailures.toNat + 1 < 2 ^ 32

/-- The invariant. -/
structure Sound (config : Config) (s : Timed) : Prop where
  configured : s.breaker.config = config
  opened : s.breaker.state = .opened → ∀ t, s.openedAt = some t →
    t + config.timeoutSeconds.toNat ≤ s.breaker.nextRetryTime
  past : s.breaker.state ≠ .opened → ∀ t, s.openedAt = some t →
    t + config.timeoutSeconds.toNat ≤ s.clock
  idle : s.breaker.state = .closed → s.waits = []
  outage : s.breaker.state ≠ .closed →
    config.failureThreshold.toNat ≤ s.breaker.metrics.consecutiveFailures.toNat ∧
      ∃ w rest, s.waits = w :: rest ∧
        w * 1000 ≤ backoffFloor config (s.breaker.metrics.consecutiveFailures.toNat + 1)
  growing : ∀ w w' rest, s.waits = w :: w' :: rest → w' ≤ w

/-! ## The invariant along a run -/

variable {config : Config} {s : Timed} {c : Call}

/-- A count that grows by one failure. -/
theorem counted (h : Regular s c) (hfail : c.isFailure = true) :
    (s.breaker.metrics.consecutiveFailures + 1).toNat =
      s.breaker.metrics.consecutiveFailures.toNat + 1 := by
  rw [UInt32.toNat_add]
  exact Nat.mod_eq_of_lt (h.fits hfail)

/-- A waiting time in seconds, against a backoff in milliseconds. -/
theorem seconds_bounds (b : UInt32) :
    ((b / 1000).toNat : Int) * 1000 ≤ b.toNat ∧
      ∀ w : Int, w * 1000 ≤ b.toNat → w ≤ (b / 1000).toNat := by
  rw [UInt32.toNat_div]
  have hthousand : (1000 : UInt32).toNat = 1000 := rfl
  rw [hthousand]
  constructor
  · omega
  · intro w hw
    omega

/-- A waiting time within the floor stays so as failures are counted. -/
theorem floor_grows {w : Int} {m n : Nat} (h : w * 1000 ≤ backoffFloor config m) (hle : m ≤ n) :
    w * 1000 ≤ backoffFloor config n :=
  h.trans (Int.ofNat_le.mpr (backoffFloor_mono config hle))

theorem state_ne {cb : CircuitBreaker} {a b : State} (h : cb.state = a) (hab : a ≠ b) :
    cb.state ≠ b := h ▸ hab

/-- A call that does not enter OPEN adds nothing to the record of an outage. -/
theorem timedStep_same (hcall : c.isReset = false) (hfrom : s.breaker.state = .opened ∨
    (step s.breaker c).state = .halfOpen) (hto : (step s.breaker c).state ≠ .closed) :
    (timedStep s c).openedAt = s.openedAt ∧ (timedStep s c).waits = s.waits := by
  have henters : enters s.breaker (step s.breaker c) = false := by
    rcases hfrom with hfrom | hfrom <;> simp [enters, hfrom]
  simp [timedStep, hcall, henters, hto]

/-- A call that enters OPEN is recorded with its waiting time. -/
theorem timedStep_enters (hcall : c.isReset = false) (hfrom : s.breaker.state ≠ .opened)
    (hto : (step s.breaker c).state = .opened) : (timedStep s c).openedAt = some c.now ∧
      (timedStep s c).waits = ((step s.breaker c).nextRetryTime - c.now) :: s.waits := by
  simp [timedStep, enters, hcall, hfrom, hto]

/-- The invariant of an OPEN breaker. -/
theorem Sound.of_opened (hconfig : s.breaker.config = config) (hstate : s.breaker.state = .opened)
    (hopened : ∀ t, s.openedAt = some t → t + config.timeoutSeconds.toNat ≤ s.breaker.nextRetryTime)
    (houtage : config.failureThreshold.toNat ≤ s.breaker.metrics.consecutiveFailures.toNat ∧
      ∃ w rest, s.waits = w :: rest ∧
        w * 1000 ≤ backoffFloor config (s.breaker.metrics.consecutiveFailures.toNat + 1))
    (hgrowing : ∀ w w' rest, s.waits = w :: w' :: rest → w' ≤ w) : Sound config s :=
  ⟨hconfig, fun _ => hopened, fun hne => absurd hstate hne,
    fun hclosed => absurd hclosed (state_ne hstate (by decide)), fun _ => houtage, hgrowing⟩

/-- The invariant of a HALF_OPEN breaker, in an outage that it takes over. -/
theorem Sound.of_halfOpen {s' : Timed} (h : Sound config s) (hfrom : s.breaker.state ≠ .closed)
    (hconfig : s'.breaker.config = config) (hstate : s'.breaker.state = .halfOpen)
    (hpast : ∀ t, s'.openedAt = some t → t + config.timeoutSeconds.toNat ≤ s'.clock)
    (hcount : s'.breaker.metrics.consecutiveFailures = s.breaker.metrics.consecutiveFailures)
    (hwaits : s'.waits = s.waits) : Sound config s' := by
  refine ⟨hconfig, fun hopened => absurd hopened (state_ne hstate (by decide)), fun _ => hpast,
    fun hclosed => absurd hclosed (state_ne hstate (by decide)), fun _ => ?_, ?_⟩
  · rw [hcount, hwaits]
    exact h.outage hfrom
  · rw [hwaits]
    exact h.growing

theorem sound_closed (h : Sound config s) (hreg : Regular s c)
    (hconfig : (step s.breaker c).config = config) (hfrom : s.breaker.state = .opened → c.isReset = true)
    (hto : (step s.breaker c).state = .closed) : Sound config (timedStep s c) := by
  have hwaits : (timedStep s c).waits = [] := by simp [timedStep, hto]
  refine ⟨hconfig, fun hopened => absurd hopened (state_ne hto (by decide)), ?_, fun _ => hwaits,
    fun hne => absurd hto hne, ?_⟩
  · intro _ t ht
    cases hreset : c.isReset with
    | true => simp [timedStep, hreset] at ht
    | false =>
      have ht' : s.openedAt = some t := by simpa [timedStep, enters, hreset, hto] using ht
      have hne : s.breaker.state ≠ .opened := fun hopened => by simp [hfrom hopened] at hreset
      exact (h.past hne t ht').trans hreg.clock
  · intro w w' rest heq
    rw [hwaits] at heq
    cases heq

/-- **The breaker trips**: the first OPEN period of the outage lasts for the timeout. -/
theorem sound_trip (h : Sound config s) (hreg : Regular s c)
    (hcover : config.timeoutSeconds.toNat * 1000 ≤ backoffFloor config (config.failureThreshold.toNat + 1))
    (hconfig : (step s.breaker c).config = config) (hcall : c.isFailure = true ∧ c.isReset = false)
    (hfrom : s.breaker.state = .closed) (hto : (step s.breaker c).state = .opened)
    (hcount : (step s.breaker c).metrics.consecutiveFailures = s.breaker.metrics.consecutiveFailures + 1)
    (hthreshold : s.breaker.config.failureThreshold ≤ s.breaker.metrics.consecutiveFailures + 1)
    (hretry : (step s.breaker c).nextRetryTime = c.now + s.breaker.config.timeoutSeconds.toNat) :
    Sound config (timedStep s c) := by
  rw [h.configured] at hretry hthreshold
  obtain ⟨hopenedAt, hwaits⟩ := timedStep_enters hcall.2 (state_ne hfrom (by decide)) hto
  rw [h.idle hfrom, hretry, add_sub_cancel_left] at hwaits
  have hcount' : (timedStep s c).breaker.metrics.consecutiveFailures.toNat =
      s.breaker.metrics.consecutiveFailures.toNat + 1 :=
    (congrArg UInt32.toNat hcount).trans (counted hreg hcall.1)
  have hthreshold' := UInt32.le_iff_toNat_le.mp hthreshold
  rw [counted hreg hcall.1] at hthreshold'
  refine Sound.of_opened hconfig hto ?_ ?_ ?_
  · intro t ht
    obtain rfl := Option.some.inj (hopenedAt.symm.trans ht)
    exact hretry.ge
  · rw [hcount']
    refine ⟨hthreshold', _, _, hwaits, ?_⟩
    exact floor_grows (m := config.failureThreshold.toNat + 1) (by omega) (by omega)
  · intro w w' rest heq
    rw [hwaits] at heq
    cases heq

theorem sound_wait (h : Sound config s) (hreg : Regular s c)
    (hconfig : (step s.breaker c).config = config) (hcall : c.isReset = false)
    (hfrom : s.breaker.state = .opened) (hto : (step s.breaker c).state = .opened)
    (hcount : (step s.breaker c).metrics.consecutiveFailures = s.breaker.metrics.consecutiveFailures ∨
      c.isFailure = true ∧
        (step s.breaker c).metrics.consecutiveFailures = s.breaker.metrics.consecutiveFailures + 1)
    (hretry : (step s.breaker c).nextRetryTime = s.breaker.nextRetryTime) :
    Sound config (timedStep s c) := by
  obtain ⟨hopenedAt, hwaits⟩ := timedStep_same hcall (.inl hfrom) (state_ne hto (by decide))
  have hcount' : s.breaker.metrics.consecutiveFailures.toNat ≤
      (timedStep s c).breaker.metrics.consecutiveFailures.toNat := by
    rcases hcount with hsame | ⟨hfail, hmore⟩
    · exact (congrArg UInt32.toNat hsame).ge
    · exact (Nat.le_succ _).trans ((congrArg UInt32.toNat hmore).trans (counted hreg hfail)).ge
  obtain ⟨hthreshold, w, rest, hw, hfloor⟩ := h.outage (state_ne hfrom (by decide))
  refine Sound.of_opened hconfig hto ?_
    ⟨hthreshold.trans hcount', w, rest, hwaits.trans hw, floor_grows hfloor (by omega)⟩ (hwaits ▸ h.growing)
  intro t ht
  rw [hopenedAt] at ht
  exact (h.opened hfrom t ht).trans hretry.ge

/-- **A failed probe**: the backoff is at least the timeout and the last waiting time. -/
theorem sound_fail (hrange : InRange config) (h : Sound config s) (hreg : Regular s c)
    (hcover : config.timeoutSeconds.toNat * 1000 ≤ backoffFloor config (config.failureThreshold.toNat + 1))
    (hconfig : (step s.breaker c).config = config) (hcall : c.isFailure = true ∧ c.isReset = false)
    (hfrom : s.breaker.state = .halfOpen) (hto : (step s.breaker c).state = .opened)
    (hcount : (step s.breaker c).metrics.consecutiveFailures = s.breaker.metrics.consecutiveFailures + 1)
    {rand : Nat} (hretry : (step s.breaker c).nextRetryTime = c.now + (calculateExponentialBackoff
      s.breaker.config (s.breaker.metrics.consecutiveFailures + 1) rand / 1000).toNat) :
    Sound config (timedStep s c) := by
  rw [h.configured] at hretry
  have hcounted := counted hreg hcall.1
  have hcount' : (timedStep s c).breaker.metrics.consecutiveFailures.toNat =
      s.breaker.metrics.consecutiveFailures.toNat + 1 := (congrArg UInt32.toNat hcount).trans hcounted
  obtain ⟨hthreshold, w, rest, hw, hfloor⟩ := h.outage (state_ne hfrom (by decide))
  obtain ⟨hlow, hhigh⟩ := backoff_bounds hrange (s.breaker.metrics.consecutiveFailures + 1) rand
  rw [hcounted] at hlow hhigh
  generalize calculateExponentialBackoff config (s.breaker.metrics.consecutiveFailures + 1) rand = b at *
  obtain ⟨hsec, hsec'⟩ := seconds_bounds b
  obtain ⟨hopenedAt, hwaits⟩ := timedStep_enters hcall.2 (state_ne hfrom (by decide)) hto
  rw [hw, hretry, add_sub_cancel_left] at hwaits
  have htimeout : (config.timeoutSeconds.toNat : Int) ≤ (b / 1000).toNat := by
    refine hsec' _ ?_
    have hmono := backoffFloor_mono config (Nat.add_le_add_right hthreshold 1)
    omega
  refine Sound.of_opened hconfig hto ?_ ?_ ?_
  · intro t ht
    obtain rfl := Option.some.inj (hopenedAt.symm.trans ht)
    exact (Int.add_le_add_left htimeout _).trans hretry.ge
  · rw [hcount']
    exact ⟨by omega, _, _, hwaits, hsec.trans (Int.ofNat_le.mpr hhigh)⟩
  · intro w₁ w₂ rest' heq
    rw [hwaits] at heq
    cases heq
    exact hsec' w (hfloor.trans (Int.ofNat_le.mpr hlow))

/-- **The step**, one case for each move. -/
theorem timedStep_sound (hrange : InRange config)
    (hcover : config.timeoutSeconds.toNat * 1000 ≤ backoffFloor config (config.failureThreshold.toNat + 1))
    (h : Sound config s) (hreg : Regular s c) : Sound config (timedStep s c) := by
  have hconfig : (step s.breaker c).config = config := (step_config _ _).trans h.configured
  cases step_move s.breaker c with
  | closed hfrom hto => exact sound_closed h hreg hconfig hfrom hto
  | trip hcall hfrom hto hcount hthreshold hretry =>
    exact sound_trip h hreg hcover hconfig hcall hfrom hto hcount hthreshold hretry
  | wait hcall hfrom hto hcount hretry => exact sound_wait h hreg hconfig hcall hfrom hto hcount hretry
  | probe hcall hfrom hto hcount hretry =>
    obtain ⟨hopenedAt, hwaits⟩ := timedStep_same hcall (.inl hfrom) (state_ne hto (by decide))
    refine h.of_halfOpen (state_ne hfrom (by decide)) hconfig hto ?_ hcount hwaits
    intro t ht
    rw [hopenedAt] at ht
    exact (h.opened hfrom t ht).trans hretry
  | test hcall hfrom hto hcount =>
    obtain ⟨hopenedAt, hwaits⟩ := timedStep_same hcall (.inr hto) (state_ne hto (by decide))
    refine h.of_halfOpen (state_ne hfrom (by decide)) hconfig hto ?_ hcount hwaits
    intro t ht
    rw [hopenedAt] at ht
    exact (h.past (state_ne hfrom (by decide)) t ht).trans hreg.clock
  | fail hcall hfrom hto hcount hretry =>
    obtain ⟨rand, hretry⟩ := hretry
    exact sound_fail hrange h hreg hcover hconfig hcall hfrom hto hcount hretry

theorem sound_new (config : Config) (now : Int) : Sound config (timedNew config now) where
  configured := rfl
  opened h := nomatch h
  past _ _ h := nomatch h
  idle _ := rfl
  outage h := absurd rfl h
  growing _ _ _ h := nomatch h

/-- What the invariant says about requests. -/
theorem Sound.punctual (h : Sound config s) : Punctual s := by
  refine ⟨?_, h.growing⟩
  intro t ht now hclock hnow
  rw [h.configured] at hnow
  by_cases hopened : s.breaker.state = .opened
  · have hretry := h.opened hopened t ht
    unfold allowRequest
    rw [hopened]
    dsimp only
    rw [if_neg (by omega)]
  · have hpast := h.past hopened t ht
    omega

/-- **An open breaker stays open**: along every run in which the clock does not go back and the failures
fit their counter, if the backoff after `failure_threshold + 1` failures covers the timeout and is computed
within 32 bits. -/
theorem stays_open (config : Config) (start : Int) (calls : List Call) (hrange : InRange config)
    (hcover : config.timeoutSeconds.toNat * 1000 ≤
      backoffFloor config (config.failureThreshold.toNat + 1))
    (hregular : Runs.AllSteps timedStep Regular (timedNew config start) calls) :
    Runs.AllStates timedStep Punctual (timedNew config start) calls :=
  (Runs.allStates_of_allSteps (fun _ _ h hreg => timedStep_sound hrange hcover h hreg)
    (sound_new config start) hregular).imp fun _ h => h.punctual

/-- Two failures, a probe that fails and a late failure, with a backoff that covers the timeout. -/
theorem covered_stays_open : Runs.AllStates timedStep Punctual
    (timedNew ⟨2, 1, 2, 1, true, 500, 32000⟩ 0)
    [.result (.failure 1 500 0), .result (.failure 2 500 0), .allowRequest 4, .result (.failure 5 500 0),
      .result (.failure 6 500 0)] := by
  refine stays_open _ _ _ (fun _ => by decide) (by decide) ⟨?_, ?_, ?_, ?_, ?_, trivial⟩
  all_goals exact ⟨by decide, fun _ => by decide⟩

/-! ## A failed probe -/

/-- The example values of the header: 30 seconds, then 100 milliseconds doubled for each failure. -/
def headerExample : Config := ⟨5, 2, 30, 3, true, 100, 32000⟩

/-- Five failures, a probe after the timeout, its failure. -/
def failedProbe : List Call :=
  [.result (.failure 1 500 0), .result (.failure 2 500 0), .result (.failure 3 500 0),
    .result (.failure 4 500 0), .result (.failure 5 500 0), .allowRequest 35, .result (.failure 36 500 10)]

/-- **Six seconds instead of thirty**: after the failed probe the breaker admits a request again long before
its timeout. -/
theorem failed_probe_cuts_timeout : ¬ ∀ (config : Config) (start : Int) (calls : List Call),
    Runs.AllSteps timedStep Regular (timedNew config start) calls →
      Runs.AllStates timedStep Punctual (timedNew config start) calls := by
  intro h
  have hregular : Runs.AllSteps timedStep Regular (timedNew headerExample 0) failedProbe := by
    refine ⟨?_, ?_, ?_, ?_, ?_, ?_, ?_, trivial⟩
    all_goals exact ⟨by decide, fun _ => by decide⟩
  have hend := (h headerExample 0 failedProbe hregular).run_mem
  have hfalse := hend.timeout 36 (by decide) 42 (by decide) (by decide)
  exact absurd hfalse (by decide)

end Sirah.Breaker
