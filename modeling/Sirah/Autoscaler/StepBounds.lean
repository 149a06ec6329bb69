import Sirah.Autoscaler.HpaController

/-!
# The size of a step

`k8s_hpa_calculate_desired_replicas` (`pkg/types/hpa.c`) against its two policies: what it returns should be a step
towards the target, no greater than the percentage of its direction allows.

* The target only picks the direction. The step is then the whole percentage, also where the target is nearer.
* A load of 0 returns `min_replicas` before the percentage is looked at.
* An `int` that overflows has no result here; `calculateDesiredReplicas_of_checked` says that where there is one it is
  that of the wrapping model.

**`bounded_step_iff`**: the step is bounded and does not pass the target **iff** a whole step fits between the count and
the target (or the limit it is clamped to), and, without load, the way down to `min_replicas` is one step.
-/

namespace Sirah.Autoscaler

/-- An `int`, if the number fits. -/
def int32 (x : Int) : Option Int := if -2 ^ 31 ≤ x ∧ x < 2 ^ 31 then some x else none

theorem int32_eq_some {x y : Int} : int32 x = some y ↔ (-2 ^ 31 ≤ x ∧ x < 2 ^ 31) ∧ x = y := by
  unfold int32
  split
  · rename_i h
    rw [Option.some.injEq, and_iff_right h]
  · rename_i h
    exact iff_of_false nofun fun hx => h hx.1

theorem wrap32_of_int32 {x y : Int} (h : int32 x = some y) : Int.wrap32 x = y := by
  obtain ⟨hx, rfl⟩ := int32_eq_some.mp h
  exact Int.bmod_eq_of_le (by omega) (by omega)

namespace Hpa

variable (hpa : Hpa)

/-- `max_increase` and `max_decrease`: a percentage of the count, and 1 if that is 0. -/
def policyStep (percent : Int) : Option Int :=
  (int32 (hpa.status.currentReplicas * percent)).map fun p => if p.tdiv 100 = 0 then 1 else p.tdiv 100

/-- The percentage policies: from the count of the formula to the one before the clamps. -/
def applyPolicies (desired : Int) : Option Int :=
  if desired > hpa.status.currentReplicas then
    (hpa.policyStep hpa.spec.upscalePolicyPercent).bind fun step => int32 (hpa.status.currentReplicas + step)
  else if desired < hpa.status.currentReplicas then
    (hpa.policyStep hpa.spec.downscalePolicyPercent).bind fun step => int32 (hpa.status.currentReplicas - step)
  else some desired

/-- The clamps to the limits. -/
def clamp (desired : Int) : Int :=
  let desired := if desired < hpa.spec.minReplicas then hpa.spec.minReplicas else desired
  if desired > hpa.spec.maxReplicas then hpa.spec.maxReplicas else desired

/-- `k8s_hpa_calculate_desired_replicas`, with no result where an `int` overflows. -/
def calculateDesiredChecked (currentUtilization targetUtilization : Int) : Option Int :=
  if targetUtilization ≤ 0 then some hpa.spec.minReplicas
  else if currentUtilization = 0 then some hpa.spec.minReplicas
  else
    (int32 (hpa.status.currentReplicas * currentUtilization)).bind fun load =>
      (int32 (load + targetUtilization)).bind fun sum =>
        (int32 (sum - 1)).bind fun rounded =>
          (hpa.applyPolicies (rounded.tdiv targetUtilization)).map hpa.clamp

/-! ## What a step should be -/

/-- `ceil(current * u / t)`. -/
def idealCount (u t : Int) : Int := -(-(hpa.status.currentReplicas * u) / t)

/-- The target within the limits. -/
def clampedTarget (u t : Int) : Int := max hpa.spec.minReplicas (min hpa.spec.maxReplicas (hpa.idealCount u t))

/-- What a percentage allows. -/
def allowance (percent : Int) : Int := max 1 (hpa.status.currentReplicas * percent / 100)

/-- **A bounded step** from the count to `d`, which does not pass the target. -/
structure BoundedStep (u t d : Int) : Prop where
  within : hpa.spec.minReplicas ≤ d ∧ d ≤ hpa.spec.maxReplicas
  between : (hpa.status.currentReplicas ≤ d ∧ d ≤ hpa.clampedTarget u t) ∨
    (hpa.clampedTarget u t ≤ d ∧ d ≤ hpa.status.currentReplicas)
  up : d - hpa.status.currentReplicas ≤ hpa.allowance hpa.spec.upscalePolicyPercent
  down : hpa.status.currentReplicas - d ≤ hpa.allowance hpa.spec.downscalePolicyPercent
  moves : hpa.clampedTarget u t ≠ hpa.status.currentReplicas → d ≠ hpa.status.currentReplicas

/-- An autoscaler whose count is within its limits, with percentages and a load in their ranges. -/
structure InRange (u t : Int) : Prop where
  current : hpa.spec.minReplicas ≤ hpa.status.currentReplicas ∧ hpa.status.currentReplicas ≤ hpa.spec.maxReplicas
  upscale : 0 ≤ hpa.spec.upscalePolicyPercent ∧ hpa.spec.upscalePolicyPercent ≤ 100
  downscale : 0 ≤ hpa.spec.downscalePolicyPercent ∧ hpa.spec.downscalePolicyPercent ≤ 100
  load : 0 ≤ u
  goal : 1 ≤ t
  fits : hpa.status.currentReplicas * u + t < 2 ^ 31

/-- **A whole step fits**: up or down to the target or the limit, and without load down to `min_replicas`. -/
structure StepFits (u t : Int) : Prop where
  idle : u = 0 →
    hpa.status.currentReplicas - hpa.spec.minReplicas ≤ hpa.allowance hpa.spec.downscalePolicyPercent
  up : u ≠ 0 → hpa.status.currentReplicas < hpa.idealCount u t →
    hpa.status.currentReplicas * hpa.spec.upscalePolicyPercent < 2 ^ 31 ∧
      hpa.status.currentReplicas + hpa.allowance hpa.spec.upscalePolicyPercent < 2 ^ 31 ∧
      (hpa.status.currentReplicas + hpa.allowance hpa.spec.upscalePolicyPercent ≤ hpa.idealCount u t ∨
        hpa.spec.maxReplicas ≤ hpa.idealCount u t)
  down : u ≠ 0 → hpa.idealCount u t < hpa.status.currentReplicas →
    hpa.status.currentReplicas * hpa.spec.downscalePolicyPercent < 2 ^ 31 ∧
      (hpa.idealCount u t ≤ hpa.status.currentReplicas - hpa.allowance hpa.spec.downscalePolicyPercent ∨
        hpa.idealCount u t ≤ hpa.spec.minReplicas)

/-! ## The formula -/

variable {hpa} {u t : Int}

/-- The ceiling of a quotient. -/
theorem ceil_eq {a b : Int} (ha : 0 ≤ a) (hb : 1 ≤ b) : (a + b - 1).tdiv b = -(-a / b) := by
  rw [Int.tdiv_eq_ediv_of_nonneg (by omega)]
  have hq := Int.emod_add_mul_ediv (-a) b
  have hr := Int.emod_nonneg (-a) (by omega : b ≠ 0)
  have hlt := Int.emod_lt_of_pos (-a) (by omega : 0 < b)
  have hsum : a + b - 1 = (b - 1 - (-a) % b) + b * -(-a / b) := by
    rw [Int.mul_neg]
    omega
  rw [hsum, Int.add_mul_ediv_left _ _ (by omega), Int.ediv_eq_zero_of_lt (by omega) (by omega)]
  omega

/-- A percentage that fits gives the step it allows. -/
theorem policyStep_eq {percent : Int} (hcurrent : 0 ≤ hpa.status.currentReplicas) (hpercent : 0 ≤ percent) :
    hpa.policyStep percent =
      if hpa.status.currentReplicas * percent < 2 ^ 31 then some (hpa.allowance percent) else none := by
  have hnonneg : 0 ≤ hpa.status.currentReplicas * percent := Int.mul_nonneg hcurrent hpercent
  unfold policyStep int32 allowance
  generalize hpa.status.currentReplicas * percent = p at *
  by_cases hfits : p < 2 ^ 31
  · rw [if_pos ⟨by omega, hfits⟩, if_pos hfits, Option.map_some, Int.tdiv_eq_ediv_of_nonneg hnonneg]
    refine congrArg some ?_
    split <;> omega
  · rw [if_neg (by omega), if_neg hfits]
    rfl

/-- What the policies of the wrapping model make of a count. -/
theorem applyPolicies_wraps {desired d : Int} (h : hpa.applyPolicies desired = some d) :
    (if desired > hpa.status.currentReplicas then
        Int.wrap32 (hpa.status.currentReplicas +
          if (Int.wrap32 (hpa.status.currentReplicas * hpa.spec.upscalePolicyPercent)).tdiv 100 = 0 then 1
          else (Int.wrap32 (hpa.status.currentReplicas * hpa.spec.upscalePolicyPercent)).tdiv 100)
      else if desired < hpa.status.currentReplicas then
        Int.wrap32 (hpa.status.currentReplicas -
          if (Int.wrap32 (hpa.status.currentReplicas * hpa.spec.downscalePolicyPercent)).tdiv 100 = 0 then 1
          else (Int.wrap32 (hpa.status.currentReplicas * hpa.spec.downscalePolicyPercent)).tdiv 100)
      else desired) = d := by
  unfold applyPolicies at h
  split at h
  · rename_i hup
    obtain ⟨step, hstep, hd⟩ := Option.bind_eq_some_iff.mp h
    obtain ⟨p, hp, rfl⟩ := Option.map_eq_some_iff.mp hstep
    rw [if_pos hup, wrap32_of_int32 hp, wrap32_of_int32 hd]
  · rename_i hup
    rw [if_neg hup]
    split at h
    · rename_i hdown
      obtain ⟨step, hstep, hd⟩ := Option.bind_eq_some_iff.mp h
      obtain ⟨p, hp, rfl⟩ := Option.map_eq_some_iff.mp hstep
      rw [if_pos hdown, wrap32_of_int32 hp, wrap32_of_int32 hd]
    · rename_i hdown
      rw [if_neg hdown]
      exact Option.some.inj h

/-- Where nothing overflows, the wrapping model computes the same. -/
theorem calculateDesiredReplicas_of_checked {d : Int} (h : hpa.calculateDesiredChecked u t = some d) :
    hpa.calculateDesiredReplicas u t = d := by
  unfold calculateDesiredChecked at h
  unfold calculateDesiredReplicas
  split at h
  · rename_i ht
    rw [if_pos ht]
    exact Option.some.inj h
  · rename_i ht
    rw [if_neg ht]
    split at h
    · rename_i hu
      rw [if_pos hu]
      exact Option.some.inj h
    · rename_i hu
      rw [if_neg hu]
      obtain ⟨load, hload, h⟩ := Option.bind_eq_some_iff.mp h
      obtain ⟨sum, hsum, h⟩ := Option.bind_eq_some_iff.mp h
      obtain ⟨rounded, hrounded, h⟩ := Option.bind_eq_some_iff.mp h
      obtain ⟨count, hcount, rfl⟩ := Option.map_eq_some_iff.mp h
      obtain ⟨-, rfl⟩ := int32_eq_some.mp hsum
      dsimp only
      rw [wrap32_of_int32 hload, wrap32_of_int32 hrounded, applyPolicies_wraps hcount]
      rfl

/-- **Under load** the formula is the ceiling, and the policies follow. -/
theorem checked_eq (h : hpa.InRange u t) (hu : u ≠ 0) :
    hpa.calculateDesiredChecked u t = (hpa.applyPolicies (hpa.idealCount u t)).map hpa.clamp := by
  have hmin := hpa.spec.min_pos
  have hcurrent := h.current
  have hgoal := h.goal
  have hfits := h.fits
  have hload : 0 ≤ hpa.status.currentReplicas * u := Int.mul_nonneg (by omega) h.load
  have hfirst : int32 (hpa.status.currentReplicas * u) = some (hpa.status.currentReplicas * u) :=
    if_pos ⟨by omega, by omega⟩
  have hsum : int32 (hpa.status.currentReplicas * u + t) = some (hpa.status.currentReplicas * u + t) :=
    if_pos ⟨by omega, by omega⟩
  have hrounded : int32 (hpa.status.currentReplicas * u + t - 1) =
      some (hpa.status.currentReplicas * u + t - 1) := if_pos ⟨by omega, by omega⟩
  unfold calculateDesiredChecked
  rw [if_neg (by omega), if_neg hu, hfirst, Option.bind_some, hsum, Option.bind_some, hrounded,
    Option.bind_some, ceil_eq hload hgoal]
  rfl

theorem one_le_allowance (hpa : Hpa) (percent : Int) : 1 ≤ hpa.allowance percent := Int.le_max_left _ _

theorem clamp_eq (hpa : Hpa) (d : Int) :
    hpa.clamp d = min hpa.spec.maxReplicas (max hpa.spec.minReplicas d) := by
  have hmin := hpa.spec.min_le_max
  unfold clamp
  dsimp only
  split <;> split <;> omega

/-- The whole step up. -/
theorem applyPolicies_up (h : hpa.InRange u t) {desired : Int} (hup : hpa.status.currentReplicas < desired) :
    hpa.applyPolicies desired =
      if hpa.status.currentReplicas * hpa.spec.upscalePolicyPercent < 2 ^ 31 ∧
          hpa.status.currentReplicas + hpa.allowance hpa.spec.upscalePolicyPercent < 2 ^ 31 then
        some (hpa.status.currentReplicas + hpa.allowance hpa.spec.upscalePolicyPercent)
      else none := by
  have hmin := hpa.spec.min_pos
  have hcurrent := h.current
  have hone := one_le_allowance hpa hpa.spec.upscalePolicyPercent
  unfold applyPolicies
  rw [if_pos hup, policyStep_eq (by omega) h.upscale.1]
  by_cases hfits : hpa.status.currentReplicas * hpa.spec.upscalePolicyPercent < 2 ^ 31
  · rw [if_pos hfits, Option.bind_some, int32]
    refine if_congr ⟨fun hx => ⟨hfits, hx.2⟩, fun hx => ⟨?_, hx.2⟩⟩ rfl rfl
    omega
  · rw [if_neg hfits, if_neg fun hx => hfits hx.1]
    rfl

/-- Under load the count is an `int` too. -/
theorem current_lt (h : hpa.InRange u t) (hu : u ≠ 0) : hpa.status.currentReplicas < 2 ^ 31 := by
  have hmin := hpa.spec.min_pos
  have hcurrent := h.current
  have hload := h.load
  have hgoal := h.goal
  have hfits := h.fits
  have hmul : hpa.status.currentReplicas * 1 ≤ hpa.status.currentReplicas * u :=
    Int.mul_le_mul_of_nonneg_left (by omega) (by omega)
  omega

/-- The whole step down. -/
theorem applyPolicies_down (h : hpa.InRange u t) (hu : u ≠ 0) {desired : Int} (hdown : desired < hpa.status.currentReplicas) :
    hpa.applyPolicies desired =
      if hpa.status.currentReplicas * hpa.spec.downscalePolicyPercent < 2 ^ 31 then
        some (hpa.status.currentReplicas - hpa.allowance hpa.spec.downscalePolicyPercent)
      else none := by
  have hmin := hpa.spec.min_pos
  have hcurrent := h.current
  have hdiv : hpa.allowance hpa.spec.downscalePolicyPercent =
      max 1 (hpa.status.currentReplicas * hpa.spec.downscalePolicyPercent / 100) := rfl
  unfold applyPolicies
  rw [if_neg (by omega), if_pos hdown, policyStep_eq (by omega) h.downscale.1]
  by_cases hfits : hpa.status.currentReplicas * hpa.spec.downscalePolicyPercent < 2 ^ 31
  · have hlt := current_lt h hu
    rw [if_pos hfits, if_pos hfits, Option.bind_some]
    exact if_pos ⟨by omega, by omega⟩
  · rw [if_neg hfits, if_neg hfits]
    rfl

/-- Without load the count goes to `min_replicas` at once. -/
theorem bounded_idle (h : hpa.InRange u t) (hu : u = 0) :
    (∃ d, hpa.calculateDesiredChecked u t = some d ∧ hpa.BoundedStep u t d) ↔
      hpa.status.currentReplicas - hpa.spec.minReplicas ≤ hpa.allowance hpa.spec.downscalePolicyPercent := by
  have hmin := hpa.spec.min_pos
  have hle := hpa.spec.min_le_max
  have hcurrent := h.current
  have hgoal := h.goal
  have hone := one_le_allowance hpa hpa.spec.upscalePolicyPercent
  have hideal : hpa.idealCount u t = 0 := by
    rw [idealCount, hu, Int.mul_zero, Int.neg_zero, Int.zero_ediv, Int.neg_zero]
  have htarget : hpa.clampedTarget u t = hpa.spec.minReplicas := by
    rw [clampedTarget, hideal]
    omega
  have hvalue : hpa.calculateDesiredChecked u t = some hpa.spec.minReplicas := by
    rw [calculateDesiredChecked, if_neg (by omega), if_pos hu]
  rw [hvalue]
  constructor
  · rintro ⟨d, hd, hstep⟩
    cases hd
    exact hstep.down
  · intro hdown
    exact ⟨_, rfl, ⟨by omega, by omega, by omega, hdown, by omega⟩⟩

/-- What a result that may be missing satisfies. -/
theorem exists_map_ite_iff {α β : Type*} {P : Prop} [Decidable P] {x : α} {f : α → β} {Q : β → Prop} :
    (∃ d, (if P then some x else none).map f = some d ∧ Q d) ↔ P ∧ Q (f x) := by
  split
  · next hP =>
    rw [and_iff_right hP]
    exact ⟨fun ⟨d, hd, hQ⟩ => Option.some.inj hd ▸ hQ, fun hQ => ⟨f x, rfl, hQ⟩⟩
  · next hP =>
    refine iff_of_false ?_ fun h => hP h.1
    rintro ⟨d, hd, -⟩
    cases hd

/-- Upwards. -/
theorem bounded_up (h : hpa.InRange u t) (hu : u ≠ 0) (hup : hpa.status.currentReplicas < hpa.idealCount u t) :
    (∃ d, hpa.calculateDesiredChecked u t = some d ∧ hpa.BoundedStep u t d) ↔
      hpa.status.currentReplicas * hpa.spec.upscalePolicyPercent < 2 ^ 31 ∧
        hpa.status.currentReplicas + hpa.allowance hpa.spec.upscalePolicyPercent < 2 ^ 31 ∧
        (hpa.status.currentReplicas + hpa.allowance hpa.spec.upscalePolicyPercent ≤ hpa.idealCount u t ∨
          hpa.spec.maxReplicas ≤ hpa.idealCount u t) := by
  have hle := hpa.spec.min_le_max
  have hcurrent := h.current
  have hone := one_le_allowance hpa hpa.spec.upscalePolicyPercent
  have hone' := one_le_allowance hpa hpa.spec.downscalePolicyPercent
  have htarget : hpa.clampedTarget u t = max hpa.spec.minReplicas (min hpa.spec.maxReplicas (hpa.idealCount u t)) :=
    rfl
  rw [checked_eq h hu, applyPolicies_up h hup, exists_map_ite_iff, clamp_eq, and_assoc]
  refine and_congr_right fun _ => and_congr_right fun _ => ⟨fun hstep => ?_, fun hroom => ?_⟩
  · have hbetween := hstep.between
    omega
  · exact ⟨by omega, by omega, by omega, by omega, by omega⟩

/-- Downwards. -/
theorem bounded_down (h : hpa.InRange u t) (hu : u ≠ 0) (hdown : hpa.idealCount u t < hpa.status.currentReplicas) :
    (∃ d, hpa.calculateDesiredChecked u t = some d ∧ hpa.BoundedStep u t d) ↔
      hpa.status.currentReplicas * hpa.spec.downscalePolicyPercent < 2 ^ 31 ∧
        (hpa.idealCount u t ≤ hpa.status.currentReplicas - hpa.allowance hpa.spec.downscalePolicyPercent ∨
          hpa.idealCount u t ≤ hpa.spec.minReplicas) := by
  have hle := hpa.spec.min_le_max
  have hcurrent := h.current
  have hone := one_le_allowance hpa hpa.spec.upscalePolicyPercent
  have hone' := one_le_allowance hpa hpa.spec.downscalePolicyPercent
  have htarget : hpa.clampedTarget u t = max hpa.spec.minReplicas (min hpa.spec.maxReplicas (hpa.idealCount u t)) :=
    rfl
  rw [checked_eq h hu, applyPolicies_down h hu hdown, exists_map_ite_iff, clamp_eq]
  refine and_congr_right fun _ => ⟨fun hstep => ?_, fun hroom => ?_⟩
  · have hbetween := hstep.between
    omega
  · exact ⟨by omega, by omega, by omega, by omega, by omega⟩

/-- **A bounded step**, exactly if a whole step fits. -/
theorem bounded_step_iff (h : hpa.InRange u t) :
    (∃ d, hpa.calculateDesiredChecked u t = some d ∧ hpa.BoundedStep u t d) ↔ hpa.StepFits u t := by
  by_cases hu : u = 0
  · rw [bounded_idle h hu]
    exact ⟨fun hx => ⟨fun _ => hx, fun hne => absurd hu hne, fun hne => absurd hu hne⟩, fun hx => hx.idle hu⟩
  · rcases Int.lt_trichotomy hpa.status.currentReplicas (hpa.idealCount u t) with hup | hsame | hdown
    · rw [bounded_up h hu hup]
      exact ⟨fun hx => ⟨fun hzero => absurd hzero hu, fun _ _ => hx, fun _ hdown => by omega⟩,
        fun hx => hx.up hu hup⟩
    · -- the count is the target, and stays
      have hcurrent := h.current
      have hone := one_le_allowance hpa hpa.spec.upscalePolicyPercent
      have hone' := one_le_allowance hpa hpa.spec.downscalePolicyPercent
      have htarget : hpa.clampedTarget u t =
          max hpa.spec.minReplicas (min hpa.spec.maxReplicas (hpa.idealCount u t)) := rfl
      have hpolicies : hpa.applyPolicies (hpa.idealCount u t) = some (hpa.idealCount u t) := by
        rw [applyPolicies, if_neg (by omega), if_neg (by omega)]
      refine iff_of_true ⟨hpa.status.currentReplicas, ?_, ⟨by omega, by omega, by omega, by omega, by omega⟩⟩
        ⟨fun hzero => absurd hzero hu, fun _ hup => by omega, fun _ hdown => by omega⟩
      rw [checked_eq h hu, hpolicies, Option.map_some, clamp_eq]
      refine congrArg some ?_
      omega
    · rw [bounded_down h hu hdown]
      exact ⟨fun hx => ⟨fun hzero => absurd hzero hu, fun _ hup => by omega, fun _ _ => hx⟩,
        fun hx => hx.down hu hdown⟩

end Hpa

/-- An autoscaler between one and 100 replicas, at ten. -/
def tenReplicas (upscale downscale : Int) : Hpa where
  name := ("web" : String)
  ns := ("default" : String)
  spec := {
    scaleTargetRef := ("web" : String)
    minReplicas := 1
    maxReplicas := 100
    targetCpuUtilization := 50
    upscaleWindowSeconds := 60
    downscaleWindowSeconds := 300
    upscalePolicyPercent := upscale
    downscalePolicyPercent := downscale
    min_pos := by decide
    min_le_max := by decide }
  status := ⟨10, 10, 0, 0, 0, 10⟩

/-- At twice the load, ten percent are a bounded step. -/
theorem ten_percent_bounded : ∃ d, (tenReplicas 10 10).calculateDesiredChecked 100 50 = some d ∧
    (tenReplicas 10 10).BoundedStep 100 50 d :=
  (Hpa.bounded_step_iff ⟨by decide, by decide, by decide, by decide, by decide, by decide⟩).mpr
    ⟨fun h => absurd h (by decide), fun _ _ => by decide, fun _ h => absurd h (by decide)⟩

/-- At a load of 55 against 50 the target is 11 replicas. The code returns 20. -/
theorem overshoots : ¬ ∃ d, (tenReplicas 100 100).calculateDesiredChecked 55 50 = some d ∧
    (tenReplicas 100 100).BoundedStep 55 50 d := by
  rintro ⟨d, hd, hstep⟩
  cases hd
  have hbetween := hstep.between
  revert hbetween
  decide

end Sirah.Autoscaler
