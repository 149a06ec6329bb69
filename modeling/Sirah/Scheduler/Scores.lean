import Sirah.Scheduler.Scheduler

/-!
# The divisors of a score

`scoring_combined` (`internal/scheduler/scoring.c`) divides by the capacities of the node, by the lengths
of the lists of the pod and, to normalise, by `weights_sum / 100`. That last divisor is a quotient of
integers: it is 0 for every sum of weights between 0 and 100.

* `Safe`: a computation that never divides by zero.
* `combined_spec`: the combined score is the normalisation of a total that is computed safely, whatever
  the flags and the weights.
* **`scored_within_iff`**: the score is defined and between 0 and 100 exactly when the weights that are
  enabled sum to 0 or to 100.
* `default_divides_by_zero`: with the weights of `scheduler_new`, 40 + 30 + 20, no node has a score.
-/

namespace Sirah.Sched

/-- The computation never divides by zero: it has one result, whatever the machine makes of such a
division, also when that is to stop the process. -/
def Safe {α : Type} (f : (Int → Option Int) → Option α) : Prop := ∃ x, ∀ divZero, f divZero = some x

/-- **The score of a node is defined and lies between 0 and 100.** -/
def ScoredWithin (config : Config) (node : NodeState) (pod : PodSpec) : Prop :=
  ∃ score, (∀ divZero, scoringCombined divZero config node pod = some score) ∧ 0 ≤ score ∧ score ≤ 100

/-- The weight of a part of the score, if the part is enabled. -/
def share (enabled : Bool) (weight : Int) : Int := if enabled then weight else 0

/-- The weights that count. -/
def Config.enabledWeights (config : Config) : Int :=
  share config.enableBinPacking config.weightBinPacking +
    share config.enablePodSpread config.weightPodSpread +
    share config.enableAffinity config.weightAffinity

/-- The end of `scoring_combined`: the total over the quotient of the weights, kept between 0 and 100. -/
def normalize (divZero : Int → Option Int) (total weightsSum : Int) : Option Int := do
  let final ← if weightsSum > 0 then do divide divZero total (← divide divZero weightsSum 100) else some 0
  return if final > 100 then 100 else if final < 0 then 0 else final

/-! ## Safe computations -/

section Safe

variable {α β : Type} {f : (Int → Option Int) → Option α} {g : (Int → Option Int) → α → Option β}

theorem Safe.value (x : α) : Safe fun _ => some x := ⟨x, fun _ => rfl⟩

theorem Safe.bind (hf : Safe f) (hg : ∀ x, Safe fun divZero => g divZero x) :
    Safe fun divZero => f divZero >>= g divZero := by
  obtain ⟨x, hx⟩ := hf
  obtain ⟨y, hy⟩ := hg x
  refine ⟨y, fun divZero => ?_⟩
  show f divZero >>= g divZero = some y
  rw [hx]
  exact hy divZero

theorem divide_of_ne {divZero : Int → Option Int} {a b : Int} (hb : b ≠ 0) :
    divide divZero a b = some (a.tdiv b) := if_neg hb

theorem safe_divide {a b : Int} (hb : b ≠ 0) : Safe fun divZero => divide divZero a b :=
  ⟨a.tdiv b, fun _ => divide_of_ne hb⟩

end Safe

/-! ## The parts of a score -/

section Parts

variable {node : NodeState}

theorem safe_utilPercent {after allocatable : Int} (h : 0 < allocatable) :
    Safe fun divZero => utilPercent divZero after allocatable :=
  (safe_divide (Int.ne_of_gt h)).bind fun _ => .value _

theorem safe_binPacking (hcpu : 0 < node.allocatableCpus) (hmem : 0 < node.allocatableMemory)
    (request : PodRequest) : Safe fun divZero => scoringBinPacking divZero node request :=
  (safe_utilPercent hcpu).bind fun _ => (safe_utilPercent hmem).bind fun _ => safe_divide (by decide)

theorem safe_freePods (hpods : 0 < node.maxPods) : Safe fun divZero => freePodsPercent divZero node :=
  (safe_divide (Int.ne_of_gt hpods)).bind fun _ => .value _

/-- A score over the length of a list of the pod, which has a neutral value for the empty list. -/
theorem safe_overLength {α : Type} (l : List α) (neutral a : Int) :
    Safe fun divZero => if l.length = 0 then some neutral else divide divZero a l.length := by
  by_cases h : l.length = 0
  · simp only [h, if_true]
    exact .value neutral
  · simp only [h, if_false]
    exact safe_divide (Int.natCast_ne_zero.mpr h)

theorem safe_podAntiAffinity (node : NodeState) (pod : PodSpec) :
    Safe fun divZero => scoringPodAntiAffinity divZero node pod := by
  unfold scoringPodAntiAffinity
  by_cases h : pod.podAntiAffinityKeys.length = 0
  · simp only [h, if_true]
    exact .value 50
  · simp only [h, if_false]
    exact (safe_divide (Int.natCast_ne_zero.mpr h)).bind fun _ => .value _

theorem safe_affinity (node : NodeState) (pod : PodSpec) :
    Safe fun divZero => affinityScore divZero node pod :=
  (safe_overLength pod.preferredNodeLabels 50 _).bind fun _ =>
    (safe_overLength pod.podAffinityKeys 50 _).bind fun _ =>
      (safe_podAntiAffinity node pod).bind fun _ => safe_divide (by decide)

/-- A part adds its weight to the sum of the weights when it is enabled, and is safe when its score is. -/
theorem weighted_spec (enabled : Bool) {weight : Int} (hweight : 0 ≤ weight)
    {score : (Int → Option Int) → Option Int} (hscore : Safe score) :
    ∃ part, ∀ divZero, weighted divZero enabled weight (score divZero) = some (part, share enabled weight) := by
  obtain ⟨x, hx⟩ := hscore
  cases enabled with
  | false => exact ⟨0, fun _ => rfl⟩
  | true =>
    by_cases hpos : weight > 0
    · refine ⟨(x * weight).tdiv 100, fun divZero => ?_⟩
      unfold weighted
      rw [Bool.true_and, if_pos (decide_eq_true hpos), hx]
      rfl
    · obtain rfl : weight = 0 := by omega
      exact ⟨0, fun _ => rfl⟩

end Parts

/-! ## The normalisation -/

section Normalize

variable {total weightsSum : Int}

/-- The divisor of the normalisation is 0 below 100 and 1 at 100. -/
theorem normalize_full (divZero : Int → Option Int) :
    normalize divZero total 100 =
      some (if total > 100 then 100 else if total < 0 then 0 else total) := by
  have hdivisor : divide divZero 100 100 = some 1 := divide_of_ne (by decide)
  have htotal : divide divZero total 1 = some total := by rw [divide_of_ne (by decide), Int.tdiv_one]
  unfold normalize
  simp only [hdivisor, htotal, Option.bind_eq_bind, Option.bind_some]
  rfl

theorem normalize_partial (total : Int) (hpos : 0 < weightsSum) (hlt : weightsSum < 100) :
    normalize (fun _ => none) total weightsSum = none := by
  unfold normalize
  rw [if_pos hpos, divide_of_ne (by decide), Int.tdiv_eq_zero_of_lt (Int.le_of_lt hpos) hlt]
  rfl

end Normalize

/-! ## The score -/

section Score

variable {config : Config} {node : NodeState}

/-- A share is between 0 and its weight. -/
theorem share_range (enabled : Bool) {weight : Int} (h : 0 ≤ weight) :
    0 ≤ share enabled weight ∧ share enabled weight ≤ weight := by
  cases enabled with
  | false => exact ⟨Int.le_refl 0, h⟩
  | true => exact ⟨h, Int.le_refl weight⟩

/-- **The combined score is the normalisation of a total that is computed safely.** -/
theorem combined_spec (hbp : 0 ≤ config.weightBinPacking) (hps : 0 ≤ config.weightPodSpread)
    (haff : 0 ≤ config.weightAffinity) (hcpu : 0 < node.allocatableCpus)
    (hmem : 0 < node.allocatableMemory) (hpods : 0 < node.maxPods) (pod : PodSpec) :
    ∃ total, ∀ divZero,
      scoringCombined divZero config node pod = normalize divZero total config.enabledWeights := by
  obtain ⟨bp, hbp⟩ := weighted_spec config.enableBinPacking hbp (safe_binPacking hcpu hmem pod.request)
  obtain ⟨ps, hps⟩ := weighted_spec config.enablePodSpread hps (safe_freePods hpods)
  obtain ⟨aff, haff⟩ := weighted_spec config.enableAffinity haff (safe_affinity node pod)
  obtain ⟨free, hfree⟩ := safe_freePods hpods
  refine ⟨bp + ps + aff + share config.enableTopologySpread
    (if 100 - config.enabledWeights > 0 then (free * (100 - config.enabledWeights)).tdiv 100 else 0),
    fun divZero => ?_⟩
  have hfree : freePodsPercent divZero node = some free := hfree divZero
  unfold scoringCombined scoringPodSpread scoringTopologySpread
  rw [hbp, hps, haff, hfree]
  -- What the other parts leave of the weight goes to the topology, if it is enabled.
  show (if config.enableTopologySpread = true then
      if 100 - config.enabledWeights > 0 then
        divide divZero (free * (100 - config.enabledWeights)) 100 >>= fun ts =>
          normalize divZero (bp + ps + aff + ts) config.enabledWeights
      else normalize divZero (bp + ps + aff + 0) config.enabledWeights
    else normalize divZero (bp + ps + aff + 0) config.enabledWeights) = _
  rw [divide_of_ne (by decide)]
  cases config.enableTopologySpread with
  | false => rfl
  | true =>
    unfold share
    by_cases hrest : 100 - config.enabledWeights > 0
    · rw [if_pos hrest, if_pos hrest]
      rfl
    · rw [if_neg hrest, if_neg hrest]
      rfl

/-- **A score is defined and between 0 and 100 exactly when the weights that are enabled sum to 0 or
to 100**, for weights that are not negative and sum to at most 100, on every node with a capacity and for
every pod. -/
theorem scored_within_iff (hbp : 0 ≤ config.weightBinPacking) (hps : 0 ≤ config.weightPodSpread)
    (haff : 0 ≤ config.weightAffinity)
    (hsum : config.weightBinPacking + config.weightPodSpread + config.weightAffinity ≤ 100)
    (hcpu : 0 < node.allocatableCpus) (hmem : 0 < node.allocatableMemory) (hpods : 0 < node.maxPods)
    (pod : PodSpec) :
    ScoredWithin config node pod ↔ config.enabledWeights = 0 ∨ config.enabledWeights = 100 := by
  obtain ⟨total, hcombined⟩ := combined_spec hbp hps haff hcpu hmem hpods pod
  have hrange : 0 ≤ config.enabledWeights ∧ config.enabledWeights ≤ 100 := by
    have := share_range config.enableBinPacking hbp
    have := share_range config.enablePodSpread hps
    have := share_range config.enableAffinity haff
    unfold Config.enabledWeights
    omega
  unfold ScoredWithin
  simp only [hcombined]
  constructor
  · rintro ⟨score, hscore, -, -⟩
    by_contra hbad
    have hpos : 0 < config.enabledWeights := by omega
    have hnone := normalize_partial total hpos (by omega)
    rw [hscore] at hnone
    exact Option.some_ne_none _ hnone
  · rintro (hsum | hsum) <;> rw [hsum]
    · exact ⟨0, fun _ => rfl, by decide, by decide⟩
    · exact ⟨_, fun divZero => normalize_full divZero, by split_ifs <;> omega, by split_ifs <;> omega⟩

/-- Four parts of a node and a pod, with the weights 40, 30 and 30. -/
theorem scored_full_weights :
    ScoredWithin ⟨true, true, true, true, 40, 30, 30⟩ ⟨"n", "Ready", 1000, 2000, 0, 0, 1, 110, [], ["gpu"]⟩
      ⟨"p", ⟨200, 500⟩, [], [], ["gpu", "ssd"], []⟩ :=
  (scored_within_iff (by decide) (by decide) (by decide) (by decide) (by decide) (by decide) (by decide)
    _).mpr (.inr rfl)

/-- **With the weights of a new scheduler the score of every node divides by zero**: 90 / 100 is 0. -/
theorem default_divides_by_zero :
    ¬ ∀ (config : Config) (node : NodeState) (pod : PodSpec),
      0 ≤ config.weightBinPacking → 0 ≤ config.weightPodSpread → 0 ≤ config.weightAffinity →
      config.weightBinPacking + config.weightPodSpread + config.weightAffinity ≤ 100 →
      0 < node.allocatableCpus → 0 < node.allocatableMemory → 0 < node.maxPods →
      ScoredWithin config node pod := by
  intro h
  obtain ⟨score, hscore, -, -⟩ := h schedulerNew.config
    ⟨"n", "Ready", 1000, 2000, 0, 0, 0, 110, [], []⟩ ⟨"p", ⟨200, 500⟩, [], [], [], []⟩
    (by decide) (by decide) (by decide) (by decide) (by decide) (by decide) (by decide)
  have hnone := hscore fun _ => none
  exact Option.some_ne_none _ (hnone.symm.trans (by decide))

end Score

end Sirah.Sched
