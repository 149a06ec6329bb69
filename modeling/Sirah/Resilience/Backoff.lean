import Sirah.Resilience.Timing

/-!
# The band of the backoff

`calculate_exponential_backoff` (`internal/resilience/circuit_breaker.c`) against its comment: the backoff,
doubled and capped, with a jitter of ten percent up or down.

* `jitter_percent` is a `uint32_t`. A negative draw is a large number, of which `abs` finds the size again,
  but `jitter_percent >= 0` always holds: the jitter is added whatever its sign.
* `backoff * 2` and `backoff * abs(...)` wrap where the limits are large (`backoff_toNat`).

**`in_band_iff`**: the backoff is in its band for every draw **iff** it is below 10 ms, so that no jitter is
left after rounding. `single_draw_iff`: where no product wraps, the draws in the band are those that are not
negative or leave no jitter.
-/

namespace Sirah.Breaker

/-- The draw `rand() % 21 - 10`. -/
def draw (rand : Nat) : Int := (rand % 21 : Nat) - 10

/-- `backoff`, with so many percent of it added or taken away, rounded towards `backoff`. -/
def jittered (backoff : Nat) (percent : Int) : Nat :=
  if 0 ≤ percent then backoff + backoff * percent.natAbs / 100 else backoff - backoff * percent.natAbs / 100

/-- **The backoff is in its band**: what the draw makes of `min(initial * 2^failures, max)`, capped. -/
def InBand (config : Config) (failures : UInt32) (rand : Nat) : Prop :=
  (calculateExponentialBackoff config failures rand).toNat =
    min config.maxBackoffMs.toNat (jittered (backoffFloor config failures.toNat) (draw rand))

/-- The backoff is in its band for every draw. -/
def StaysInBand (config : Config) (failures : UInt32) : Prop := ∀ rand, InBand config failures rand

theorem absWord_draw (rand : Nat) :
    (absWord (UInt32.ofNat (rand % 21) - 10)).toNat = (draw rand).natAbs := by
  have hall : ∀ r < 21, (absWord (UInt32.ofNat r - 10)).toNat = ((r : Int) - 10).natAbs := by decide
  exact hall _ (Nat.mod_lt _ (by decide))

theorem natAbs_draw_le (rand : Nat) : (draw rand).natAbs ≤ 10 := by
  unfold draw
  omega

section Band

variable {config : Config} {failures : UInt32}

/-- **What the code computes**: the jitter is always added, in 32 bits. -/
theorem backoff_toNat (hexp : config.useExponentialBackoff = true) (rand : Nat) :
    (calculateExponentialBackoff config failures rand).toNat =
      min config.maxBackoffMs.toNat
        (((doubleBackoff config.maxBackoffMs failures.toNat config.initialBackoffMs).toNat +
          (doubleBackoff config.maxBackoffMs failures.toNat config.initialBackoffMs).toNat *
            (draw rand).natAbs % 2 ^ 32 / 100) % 2 ^ 32) := by
  unfold calculateExponentialBackoff
  generalize doubleBackoff config.maxBackoffMs failures.toNat config.initialBackoffMs = b
  have hsum : (b + b * absWord (UInt32.ofNat (rand % 21) - 10) / 100).toNat =
      (b.toNat + b.toNat * (draw rand).natAbs % 2 ^ 32 / 100) % 2 ^ 32 := by
    rw [UInt32.toNat_add, UInt32.toNat_div, UInt32.toNat_mul, absWord_draw]
    rfl
  simp only [hexp, Bool.not_true, Bool.false_eq_true, if_false, if_true, ge_iff_le, UInt32.zero_le]
  rw [← hsum]
  split
  · next hcap =>
    have hcap' := UInt32.lt_iff_toNat_lt.mp hcap
    omega
  · next hcap =>
    have hcap' := mt UInt32.lt_iff_toNat_lt.mpr hcap
    omega

/-- The doubled backoff stays below the maximum. -/
theorem doubleBackoff_le {maxBackoff : UInt32} (n : Nat) {b : UInt32} (h : b ≤ maxBackoff) :
    doubleBackoff maxBackoff n b ≤ maxBackoff := by
  induction n generalizing b with
  | zero => exact h
  | succ n ih =>
    unfold doubleBackoff
    split
    · dsimp only
      split
      · exact UInt32.le_refl _
      · next hnext => exact ih (UInt32.not_lt.mp hnext)
    · exact h

/-- Where no doubling below the maximum wraps, the loop computes the capped backoff. -/
theorem doubleBackoff_eq_floor (hexp : config.useExponentialBackoff = true)
    (hle : config.initialBackoffMs ≤ config.maxBackoffMs)
    (hfits : ∀ i < failures.toNat, config.initialBackoffMs.toNat * 2 ^ i < config.maxBackoffMs.toNat →
      config.initialBackoffMs.toNat * 2 ^ (i + 1) < 2 ^ 32) :
    (doubleBackoff config.maxBackoffMs failures.toNat config.initialBackoffMs).toNat =
      backoffFloor config failures.toNat := by
  have hle' := UInt32.le_iff_toNat_le.mp hle
  have hone : config.initialBackoffMs.toNat ≤ config.initialBackoffMs.toNat * 2 ^ failures.toNat :=
    Nat.le_mul_of_pos_right _ (Nat.two_pow_pos _)
  rw [doubleBackoff_of_fits failures.toNat config.initialBackoffMs hfits, backoffFloor, if_pos hexp]
  split <;> omega

/-- A small backoff was not computed by a doubling that wraps. -/
theorem doubleBackoff_of_floor_lt (hexp : config.useExponentialBackoff = true)
    (hle : config.initialBackoffMs ≤ config.maxBackoffMs) (hsmall : backoffFloor config failures.toNat < 10) :
    (doubleBackoff config.maxBackoffMs failures.toNat config.initialBackoffMs).toNat =
      backoffFloor config failures.toNat := by
  refine doubleBackoff_eq_floor hexp hle fun i hi hlt => ?_
  have hpow : config.initialBackoffMs.toNat * 2 ^ (i + 1) ≤ config.initialBackoffMs.toNat * 2 ^ failures.toNat :=
    Nat.mul_le_mul_left _ (Nat.pow_le_pow_right (by decide) hi)
  have hdouble : config.initialBackoffMs.toNat * 2 ^ (i + 1) = config.initialBackoffMs.toNat * 2 ^ i * 2 := by
    rw [Nat.pow_succ, Nat.mul_assoc]
  rw [backoffFloor, if_pos hexp] at hsmall
  omega

/-- **In its band for every draw**, exactly if the backoff is so small that no draw changes it. -/
theorem in_band_iff (hexp : config.useExponentialBackoff = true)
    (hle : config.initialBackoffMs ≤ config.maxBackoffMs) :
    StaysInBand config failures ↔ backoffFloor config failures.toNat < 10 := by
  have hfloor : backoffFloor config failures.toNat ≤ config.maxBackoffMs.toNat := by
    rw [backoffFloor, if_pos hexp]
    exact Nat.min_le_right _ _
  have hlt := config.maxBackoffMs.toNat_lt
  constructor
  · intro hband
    -- the draw 0 shows what the loop computed, the draw -10 the sign of the jitter
    have hzero := hband 10
    have hten := hband 0
    have hb := UInt32.le_iff_toNat_le.mp (doubleBackoff_le failures.toNat hle)
    rw [InBand, backoff_toNat hexp, show draw 10 = 0 from rfl, jittered, if_pos (by decide), Int.natAbs_zero] at hzero
    rw [InBand, backoff_toNat hexp, show draw 0 = -10 from rfl, jittered, if_neg (by decide),
      show (-10 : Int).natAbs = 10 from rfl] at hten
    omega
  · intro hsmall rand
    have habs := natAbs_draw_le rand
    have hmul : backoffFloor config failures.toNat * (draw rand).natAbs ≤ 9 * 10 :=
      Nat.mul_le_mul (Nat.le_of_lt_succ hsmall) habs
    rw [InBand, backoff_toNat hexp, doubleBackoff_of_floor_lt hexp hle hsmall, jittered]
    split <;> omega

/-- Where no product wraps, **a single draw** is in the band exactly if it is not negative or changes
nothing. -/
theorem single_draw_iff (hexp : config.useExponentialBackoff = true)
    (hle : config.initialBackoffMs ≤ config.maxBackoffMs) (hmax : config.maxBackoffMs.toNat * 10 < 2 ^ 32)
    (rand : Nat) : InBand config failures rand ↔
      0 ≤ draw rand ∨ backoffFloor config failures.toNat * (draw rand).natAbs < 100 := by
  have hfloor : backoffFloor config failures.toNat ≤ config.maxBackoffMs.toNat := by
    rw [backoffFloor, if_pos hexp]
    exact Nat.min_le_right _ _
  have hloop : (doubleBackoff config.maxBackoffMs failures.toNat config.initialBackoffMs).toNat =
      backoffFloor config failures.toNat := by
    refine doubleBackoff_eq_floor hexp hle fun i _ hlt => ?_
    rw [Nat.pow_succ, ← Nat.mul_assoc]
    omega
  have hmul : backoffFloor config failures.toNat * (draw rand).natAbs ≤ config.maxBackoffMs.toNat * 10 :=
    Nat.mul_le_mul hfloor (natAbs_draw_le rand)
  rw [InBand, backoff_toNat hexp, hloop, jittered]
  split <;> omega

end Band

/-- A breaker that backs off between two limits. -/
def between (initial max : UInt32) : Config where
  failureThreshold := 5
  successThreshold := 2
  timeoutSeconds := 30
  maxHalfOpenRequests := 3
  useExponentialBackoff := true
  initialBackoffMs := initial
  maxBackoffMs := max

/-- One millisecond, doubled three times. -/
theorem short_backoff_in_band : StaysInBand (between 1 9) 3 :=
  (in_band_iff rfl (by decide)).mpr (by decide)

/-- A second, with ten percent taken away: the code adds them. -/
theorem negative_draw_adds : ¬ InBand (between 1000 60000) 0 0 := by
  unfold InBand
  decide

end Sirah.Breaker
