import Mathlib.Algebra.Order.Group.Nat
import Mathlib.Data.Int.Order.Basic
import Sirah.Lib.CString

/-!
# The supervisor of the kubelet's components

Model of `internal/kubelet/supervision.c`. Each round of `supervisor_run` calls the function of every component that is
running. One that fails is restarted after a pause, or stopped: at once if it is `TEMPORARY`, and else when it has been restarted
`max_restarts` times.

What the functions and `rand` return, and whether another thread has called `supervisor_stop` before a round, is a parameter
(`Env`).

* `allowance`: how many failures a component survives.
* **`restarts_exact`**: after any number of rounds a component runs exactly if it failed no more often than this, it was restarted
  as often as it failed, up to this, and the pauses grow from 100 ms to 3.2 s, with a tenth of jitter at most.
* **`supervisor_returns_iff`**: `supervisor_run` returns exactly if it is stopped or every component fails more often than its
  allowance. One component that goes on keeps it running.
-/

namespace Sirah.KubeletSupervisor

/-! ## Components -/

/-- `restart_strategy_t`. -/
inductive RestartStrategy where
  | permanent
  | transient
  | temporary
  deriving DecidableEq

/-- `component_state_t`. -/
inductive ComponentState where
  | stopped
  | starting
  | running
  | stopping
  deriving DecidableEq

/-- `supervised_component_t`, with the pauses that were made before its restarts. -/
structure Component where
  name : CString
  strategy : RestartStrategy
  state : ComponentState
  failureCount : Nat
  maxRestarts : Int
  pauses : List Int
  deriving DecidableEq

/-- `supervisor_t`. -/
structure Supervisor where
  components : List Component
  running : Bool

/-- `supervisor_new`. -/
def supervisorNew : Supervisor := ⟨[], false⟩

/-- The component that `supervisor_add_component` fills in. -/
def newComponent (name : CString) (strategy : RestartStrategy) (maxRestarts : Int) : Component :=
  ⟨name, strategy, .stopped, 0, maxRestarts, []⟩

/-- `supervisor_add_component`. -/
def supervisorAddComponent (s : Supervisor) (name : CString) (strategy : RestartStrategy) (maxRestarts : Int) :
    Supervisor := { s with components := s.components ++ [newComponent name strategy maxRestarts] }

/-- `supervisor_start`. -/
def supervisorStart (s : Supervisor) : Supervisor :=
  { components := s.components.map fun c => { c with state := .running }, running := true }

/-- `supervisor_stop`. -/
def supervisorStop (s : Supervisor) : Supervisor :=
  { components := s.components.map fun c => { c with state := .stopped }, running := false }

/-- `supervisor_calculate_backoff`: a doubling for each failure, five at most. -/
def calculateBackoff (initialMs : Int) (failureCount : Nat) : Int :=
  let backoff := initialMs * 2 ^ min failureCount 5
  if backoff > initialMs * 32 then initialMs * 32 else backoff

/-- `supervisor_add_jitter`, for what `rand` returns. -/
def addJitter (rand : Nat) (backoffMs : Int) : Int := backoffMs + (rand : Int).tmod (backoffMs.tdiv 10 + 1)

/-- `supervisor_restart_component`. -/
def restartComponent (rand : Nat) (c : Component) : Component :=
  if c.failureCount ≥ c.maxRestarts then { c with state := .stopped }
  else
    { c with
      failureCount := c.failureCount + 1
      state := .running
      pauses := c.pauses ++ [addJitter rand (calculateBackoff 100 c.failureCount)] }

/-! ## The loop -/

/-- What the supervisor finds: the result of component `i` in round `r`, what `rand` returns at its restart, and whether
`supervisor_stop` was called before the round. -/
structure Env where
  result : Nat → Nat → Int
  rand : Nat → Nat → Nat
  stop : Nat → Bool

/-- One component in a round. -/
def tick (result : Int) (rand : Nat) (c : Component) : Component :=
  if c.state ≠ .running then c
  else if result ≠ 0 then
    match c.strategy with
    | .permanent => restartComponent rand c
    | .transient => restartComponent rand c
    | .temporary => { c with state := .stopped }
  else c

/-- A round. -/
def round (env : Env) (r : Nat) (cs : List Component) : List Component :=
  cs.mapIdx fun i c => tick (env.result r i) (env.rand r i) c

/-- Is a component running? -/
def anyRunning (cs : List Component) : Bool := cs.any fun c => c.state = .running

/-- The loop of `supervisor_run`, from round `r` on. -/
def loop (env : Env) : Nat → Nat → Supervisor → Option Supervisor
  | 0, _, _ => none
  | fuel + 1, r, s =>
    let s := if env.stop r then supervisorStop s else s
    if s.running then
      let s := { s with components := round env r s.components }
      if anyRunning s.components then loop env fuel (r + 1) s else some s
    else some s

/-- `supervisor_run`, for a number of rounds. -/
def supervisorRun (env : Env) (fuel : Nat) (s : Supervisor) : Option Supervisor := loop env fuel 0 (supervisorStart s)

/-- The supervisor with these components. -/
def supervising (specs : List (CString × RestartStrategy × Int)) : Supervisor :=
  specs.foldl (fun s spec => supervisorAddComponent s spec.1 spec.2.1 spec.2.2) supervisorNew

/-- **How many failures** a component survives. -/
def allowance : RestartStrategy → Int → Nat
  | .temporary, _ => 0
  | _, maxRestarts => maxRestarts.toNat

/-- How often component `i` failed in the first `n` rounds. -/
def failures (env : Env) (i n : Nat) : Nat := (List.range n).countP fun r => env.result r i ≠ 0

/-- The components after `n` rounds. -/
def rounds (env : Env) : Nat → List Component → List Component
  | 0, cs => cs
  | n + 1, cs => round env n (rounds env n cs)

/-- A component after `n` rounds: it was restarted for each failure up to its allowance, and then stopped. -/
structure After (env : Env) (i n : Nat) (spec : CString × RestartStrategy × Int) (c : Component) : Prop where
  strategy : c.strategy = spec.2.1
  maxRestarts : c.maxRestarts = spec.2.2
  state : c.state = if failures env i n ≤ allowance spec.2.1 spec.2.2 then .running else .stopped
  restarted : c.failureCount = min (failures env i n) (allowance spec.2.1 spec.2.2)
  paused : c.pauses.length = c.failureCount
  /-- The pause before restart `k + 1`. -/
  pauses : ∀ (k : Nat) (p : Int), c.pauses[k]? = some p → 100 * 2 ^ min k 5 ≤ p ∧ p ≤ 110 * 2 ^ min k 5

/-! ## One component -/

variable {env : Env} {i n r fuel : Nat} {spec : CString × RestartStrategy × Int} {c : Component} {cs : List Component}
  {specs : List (CString × RestartStrategy × Int)} {s : Supervisor}

theorem failures_succ : failures env i (n + 1) = failures env i n + if env.result n i ≠ 0 then 1 else 0 := by
  rw [failures, List.range_succ, List.countP_append, List.countP_singleton, failures]
  simp only [decide_eq_true_eq]

theorem calculateBackoff_eq (k : Nat) : calculateBackoff 100 k = 100 * 2 ^ min k 5 := by
  have hle : (2 : Int) ^ min k 5 ≤ 2 ^ 5 := by
    exact_mod_cast Nat.pow_le_pow_right (by decide : 0 < 2) (Nat.min_le_right k 5)
  rw [calculateBackoff]
  exact if_neg (by omega)

/-- A tenth of jitter at most. -/
theorem addJitter_bounds (rand : Nat) {b : Int} (hb : 0 ≤ b) : b ≤ addJitter rand b ∧ addJitter rand b ≤ b + b / 10 := by
  have htenth : 0 ≤ b / 10 := Int.ediv_nonneg hb (by decide)
  have hlo : 0 ≤ (rand : Int) % (b / 10 + 1) := Int.emod_nonneg _ (by omega)
  have hhi : (rand : Int) % (b / 10 + 1) < b / 10 + 1 := Int.emod_lt_of_pos _ (by omega)
  rw [addJitter, Int.tdiv_eq_ediv_of_nonneg hb, Int.tmod_eq_emod_of_nonneg (Int.natCast_nonneg rand)]
  omega

theorem pause_bounds (rand k : Nat) : 100 * 2 ^ min k 5 ≤ addJitter rand (calculateBackoff 100 k) ∧
    addJitter rand (calculateBackoff 100 k) ≤ 110 * 2 ^ min k 5 := by
  have hpos : (0 : Int) < 2 ^ min k 5 := Int.pow_pos (by decide)
  have hbounds := addJitter_bounds rand (b := 100 * 2 ^ min k 5) (by omega)
  rw [calculateBackoff_eq]
  omega

/-- **One round** of a component that failed a number of times before. -/
theorem After.tick (h : After env i n spec c) : After env i (n + 1) spec (tick (env.result n i) (env.rand n i) c) := by
  obtain ⟨hstrategy, hmax, hstate, hrestarted, hpaused, hpauses⟩ := h
  by_cases hrun : failures env i n ≤ allowance spec.2.1 spec.2.2
  · rw [if_pos hrun] at hstate
    rw [KubeletSupervisor.tick, if_neg (not_not.mpr hstate)]
    by_cases hres : env.result n i ≠ 0
    · rw [if_pos hres]
      have hfail : failures env i (n + 1) = failures env i n + 1 := by rw [failures_succ, if_pos hres]
      have hcount : c.failureCount = failures env i n := by rw [hrestarted, Nat.min_eq_left hrun]
      -- without a restart left the component is stopped
      have hstop : allowance spec.2.1 spec.2.2 = failures env i n →
          After env i (n + 1) spec { c with state := .stopped } := fun hlast =>
        ⟨hstrategy, hmax, by rw [if_neg (by omega)], by rw [hcount, hfail]; omega, hpaused, hpauses⟩
      have hrestart : allowance spec.2.1 spec.2.2 = spec.2.2.toNat →
          After env i (n + 1) spec (restartComponent (env.rand n i) c) := by
        intro hallow
        rw [restartComponent]
        by_cases hfull : (c.failureCount : Int) ≥ c.maxRestarts
        · rw [if_pos hfull]
          exact hstop (by omega)
        · rw [if_neg hfull]
          refine ⟨hstrategy, hmax, by rw [if_pos (by omega)], by dsimp only; omega, ?_, fun k p hp => ?_⟩
          · rw [List.length_append, hpaused, List.length_singleton]
          · rcases Nat.lt_or_ge k c.pauses.length with hlt | hge
            · rw [List.getElem?_append_left hlt] at hp
              exact hpauses k p hp
            · rw [List.getElem?_append_right hge, List.getElem?_singleton] at hp
              obtain rfl : k = c.failureCount := by
                by_contra hne
                rw [if_neg (by omega)] at hp
                nomatch hp
              rw [if_pos (by omega), Option.some.injEq] at hp
              rw [← hp]
              exact pause_bounds _ _
      split
      · next hs => exact hrestart (by rw [← hstrategy, hs, allowance]; nofun)
      · next hs => exact hrestart (by rw [← hstrategy, hs, allowance]; nofun)
      · next hs =>
        refine hstop ?_
        rw [← hstrategy, hs, allowance] at hrun ⊢
        omega
    · have hfail : failures env i (n + 1) = failures env i n := by rw [failures_succ, if_neg hres, Nat.add_zero]
      rw [if_neg hres]
      exact ⟨hstrategy, hmax, by rw [hfail, if_pos hrun]; exact hstate, by rw [hfail]; exact hrestarted, hpaused, hpauses⟩
  · have hle : failures env i n ≤ failures env i (n + 1) := by rw [failures_succ]; exact Nat.le_add_right _ _
    rw [if_neg hrun] at hstate
    rw [KubeletSupervisor.tick, if_pos (by rw [hstate]; nofun)]
    exact ⟨hstrategy, hmax, by rw [if_neg (by omega)]; exact hstate, by rw [hrestarted]; omega, hpaused, hpauses⟩

/-! ## The rounds -/

theorem rounds_getElem? : (rounds env (n + 1) cs)[i]? =
    (rounds env n cs)[i]?.map (tick (env.result n i) (env.rand n i)) := by
  rw [rounds, round, List.getElem?_mapIdx]

theorem length_rounds : (rounds env n cs).length = cs.length := by
  induction n with
  | zero => rfl
  | succ n ih => rw [rounds, round, List.length_mapIdx, ih]

theorem supervising_components (specs : List (CString × RestartStrategy × Int)) :
    (supervising specs).components = specs.map fun spec => newComponent spec.1 spec.2.1 spec.2.2 := by
  have hfold : ∀ s : Supervisor,
      (specs.foldl (fun s spec => supervisorAddComponent s spec.1 spec.2.1 spec.2.2) s).components =
        s.components ++ specs.map fun spec => newComponent spec.1 spec.2.1 spec.2.2 := by
    induction specs with
    | nil => exact fun s => (List.append_nil _).symm
    | cons spec specs ih =>
      intro s
      rw [List.foldl_cons, ih, supervisorAddComponent, List.map_cons, List.append_assoc, List.singleton_append]
  exact hfold supervisorNew

/-- The components when the loop starts. -/
def started (specs : List (CString × RestartStrategy × Int)) : List Component :=
  (supervisorStart (supervising specs)).components

theorem started_getElem? : (started specs)[i]? = specs[i]?.map fun spec =>
    { newComponent spec.1 spec.2.1 spec.2.2 with state := .running } := by
  rw [started, supervisorStart, supervising_components, List.map_map, List.getElem?_map]
  rfl

/-- **Restarts are exact**: after every number of rounds, for all components and whatever their functions return. -/
theorem restarts_exact (env : Env) (n : Nat) (h : specs[i]? = some spec) :
    ∃ c, (rounds env n (started specs))[i]? = some c ∧ After env i n spec c := by
  induction n with
  | zero =>
    refine ⟨_, by rw [rounds, started_getElem?, h, Option.map_some], rfl, rfl, ?_, ?_, rfl, fun k p hp => ?_⟩
    · rw [failures, List.range_zero, List.countP_nil, if_pos (Nat.zero_le _)]
    · rw [failures, List.range_zero, List.countP_nil, Nat.zero_min, newComponent]
    · rw [newComponent, List.getElem?_nil] at hp
      nomatch hp
  | succ n ih =>
    obtain ⟨c, hc, hafter⟩ := ih
    exact ⟨_, by rw [rounds_getElem?, hc, Option.map_some], hafter.tick⟩

theorem restarts_exact_flaky : ∃ c,
    (rounds ⟨fun r _ => if r < 3 then 1 else 0, fun r _ => r, fun _ => false⟩ 5 (started [("sync", .transient, 2)]))[0]? =
      some c ∧ After ⟨fun r _ => if r < 3 then 1 else 0, fun r _ => r, fun _ => false⟩ 0 5 ("sync", .transient, 2) c :=
  restarts_exact _ 5 rfl

/-! ## When the loop ends -/

/-- No component is running exactly if all failed more often than they may. -/
theorem anyRunning_eq_false_iff : anyRunning (rounds env n (started specs)) = false ↔
    ∀ i spec, specs[i]? = some spec → allowance spec.2.1 spec.2.2 < failures env i n := by
  have hlength : (rounds env n (started specs)).length = specs.length := by
    rw [length_rounds, started, supervisorStart, supervising_components, List.length_map, List.length_map]
  rw [anyRunning, List.any_eq_false]
  constructor
  · intro hnone i spec hspec
    obtain ⟨c, hc, hafter⟩ := restarts_exact env n hspec
    have hc' := hnone c (List.mem_of_getElem? hc)
    by_contra hle
    refine hc' (decide_eq_true ?_)
    rw [hafter.state, if_pos (Nat.not_lt.mp hle)]
  · intro hall c hmem
    obtain ⟨i, hi, rfl⟩ := List.mem_iff_getElem.mp hmem
    have hi' : i < specs.length := hlength ▸ hi
    have hspec : specs[i]? = some specs[i] := List.getElem?_eq_getElem hi'
    obtain ⟨c, hc, hafter⟩ := restarts_exact env n hspec
    rw [List.getElem?_eq_getElem hi, Option.some.injEq] at hc
    rw [hc, hafter.state, if_neg (Nat.not_le.mpr (hall i _ hspec))]
    nofun

/-- The loop goes on for as many rounds as it has fuel, if it is not stopped and some component runs after each of them. -/
theorem loop_eq_none_iff (hrunning : s.running = true) (hcs : s.components = rounds env r cs) :
    loop env fuel r s = none ↔ ∀ k < fuel, env.stop (r + k) = false ∧ anyRunning (rounds env (r + k + 1) cs) = true := by
  induction fuel generalizing r s with
  | zero => exact iff_of_true rfl nofun
  | succ fuel ih =>
    have hsplit : (∀ k < fuel + 1, env.stop (r + k) = false ∧ anyRunning (rounds env (r + k + 1) cs) = true) ↔
        (env.stop r = false ∧ anyRunning (rounds env (r + 1) cs) = true) ∧
          ∀ k < fuel, env.stop (r + 1 + k) = false ∧ anyRunning (rounds env (r + 1 + k + 1) cs) = true := by
      constructor
      · intro h
        refine ⟨h 0 (Nat.succ_pos _), fun k hk => ?_⟩
        rw [Nat.add_right_comm r 1 k]
        exact h (k + 1) (Nat.succ_lt_succ hk)
      · rintro ⟨hzero, hsucc⟩ k hk
        cases k with
        | zero => exact hzero
        | succ k =>
          have hk' := hsucc k (Nat.lt_of_succ_lt_succ hk)
          rwa [Nat.add_right_comm r 1 k] at hk'
    rw [hsplit, loop]
    cases hstop : env.stop r with
    | true => simp [supervisorStop]
    | false =>
      have hround : round env r s.components = rounds env (r + 1) cs := by rw [hcs, rounds]
      simp only [Bool.false_eq_true, if_false, hrunning, if_true, hround, true_and]
      cases hany : anyRunning (rounds env (r + 1) cs) with
      | true =>
        simp only [if_true, true_and]
        exact ih rfl rfl
      | false => simp

/-- A property that all of finitely many have in the end, they have at once. -/
theorem exists_all_lt {P : Nat → Nat → Prop} (hmono : ∀ i n n', n ≤ n' → P i n → P i n') {k : Nat}
    (h : ∀ i < k, ∃ n, P i n) : ∃ n, ∀ i < k, P i n := by
  induction k with
  | zero => exact ⟨0, nofun⟩
  | succ k ih =>
    obtain ⟨n, hn⟩ := ih fun i hi => h i (Nat.lt_succ_of_lt hi)
    obtain ⟨n', hn'⟩ := h k (Nat.lt_succ_self k)
    refine ⟨max n n', fun i hi => ?_⟩
    rcases Nat.lt_succ_iff_lt_or_eq.mp hi with hlt | rfl
    · exact hmono i n _ (Nat.le_max_left _ _) (hn i hlt)
    · exact hmono i n' _ (Nat.le_max_right _ _) hn'

theorem failures_mono {n' : Nat} (h : n ≤ n') : failures env i n ≤ failures env i n' := by
  rw [failures, failures]
  exact (List.range_sublist.mpr h).countP_le

/-- **When the supervisor returns.** -/
theorem supervisor_returns_iff (env : Env) (specs : List (CString × RestartStrategy × Int)) :
    (∃ fuel t, supervisorRun env fuel (supervising specs) = some t) ↔ (∃ r, env.stop r = true) ∨
      ∀ i spec, specs[i]? = some spec → ∃ n, allowance spec.2.1 spec.2.2 < failures env i n := by
  have hnone : ∀ fuel, supervisorRun env fuel (supervising specs) = none ↔
      ∀ k < fuel, env.stop (0 + k) = false ∧ anyRunning (rounds env (0 + k + 1) (started specs)) = true :=
    fun fuel => loop_eq_none_iff rfl rfl
  simp only [Nat.zero_add] at hnone
  constructor
  · rintro ⟨fuel, t, ht⟩
    have hsome : ¬ supervisorRun env fuel (supervising specs) = none := by
      rw [ht]
      nofun
    simp only [hnone, not_forall, not_and_or, Bool.not_eq_false, Bool.not_eq_true] at hsome
    obtain ⟨k, -, hstop | hend⟩ := hsome
    · exact .inl ⟨k, hstop⟩
    · exact .inr fun i spec hspec => ⟨k + 1, anyRunning_eq_false_iff.mp hend i spec hspec⟩
  · intro h
    have hend : ∃ fuel, ¬ supervisorRun env fuel (supervising specs) = none := by
      simp only [hnone, not_forall, not_and_or, Bool.not_eq_false, Bool.not_eq_true]
      rcases h with ⟨r, hr⟩ | hall
      · exact ⟨r + 1, r, Nat.lt_succ_self r, .inl hr⟩
      · -- all components have failed too often after one number of rounds
        obtain ⟨n, hn⟩ : ∃ n, ∀ i < specs.length, ∀ spec, specs[i]? = some spec →
            allowance spec.2.1 spec.2.2 < failures env i n := by
          refine exists_all_lt (fun i n n' hle hP spec hspec => (hP spec hspec).trans_le (failures_mono hle)) ?_
          intro i hi
          obtain ⟨n, hn⟩ := hall i specs[i] (List.getElem?_eq_getElem hi)
          refine ⟨n, fun spec hspec => ?_⟩
          rw [List.getElem?_eq_getElem hi, Option.some.injEq] at hspec
          exact hspec ▸ hn
        refine ⟨n + 1, n, Nat.lt_succ_self n, .inr (anyRunning_eq_false_iff.mpr fun i spec hspec => ?_)⟩
        obtain ⟨hi, -⟩ := List.getElem?_eq_some_iff.mp hspec
        exact (hn i hi spec hspec).trans_le (failures_mono (Nat.le_succ n))
    obtain ⟨fuel, hfuel⟩ := hend
    obtain ⟨t, ht⟩ := Option.ne_none_iff_exists'.mp hfuel
    exact ⟨fuel, t, ht⟩

end Sirah.KubeletSupervisor
