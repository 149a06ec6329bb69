import Mathlib.Data.List.Infix

/-!
# Runs of a step function

A system is a step function `step : σ → α → σ`: `step s a` is the state after action `a` in state
`s`. A run is a list of actions, and an interleaving of several parties is a run whose actions name
the party.

* `AllStates step Q s as`: every state of the run of `as` from `s` satisfies `Q`, the first state
  included. `allStates_iff_prefixes` reads it as a statement about every reachable state.
* `AllSteps step P s as`: every action of the run satisfies `P` in the state it is taken from.

The rules:
* `allStates_of_allSteps`: a property kept by every step that satisfies `P` holds along every run
  whose steps all satisfy `P`. `allSteps_of_kept`: and so does what each such step does in its states.
* `allStates_iff_allSteps`: when `P` says exactly which steps keep the property, the property holds
  along a run **iff** every step of the run satisfies `P`.
The exact rule carries an auxiliary invariant `I` and an assumption `A` on the steps of the run.
-/

namespace Runs

variable {σ α : Type*} (step : σ → α → σ)

/-- The state a run ends in. -/
def run (s : σ) (as : List α) : σ := as.foldl step s

/-- Every state of the run satisfies `Q`. -/
def AllStates (Q : σ → Prop) : σ → List α → Prop
  | s, [] => Q s
  | s, a :: as => Q s ∧ AllStates Q (step s a) as

/-- Every step of the run satisfies `P` in the state it is taken from. -/
def AllSteps (P : σ → α → Prop) : σ → List α → Prop
  | _, [] => True
  | s, a :: as => P s a ∧ AllSteps P (step s a) as

instance AllStates.decidable {Q : σ → Prop} [DecidablePred Q] :
    ∀ (s : σ) (as : List α), Decidable (AllStates step Q s as)
  | s, [] => inferInstanceAs (Decidable (Q s))
  | s, a :: as =>
    have := AllStates.decidable (Q := Q) (step s a) as
    inferInstanceAs (Decidable (Q s ∧ AllStates step Q (step s a) as))

instance AllSteps.decidable {P : σ → α → Prop} [∀ s a, Decidable (P s a)] :
    ∀ (s : σ) (as : List α), Decidable (AllSteps step P s as)
  | _, [] => inferInstanceAs (Decidable True)
  | s, a :: as =>
    have := AllSteps.decidable (P := P) (step s a) as
    inferInstanceAs (Decidable (P s a ∧ AllSteps step P (step s a) as))

variable {step} {Q : σ → Prop} {P P' : σ → α → Prop} {I : σ → Prop} {s : σ} {as : List α}

@[simp] theorem run_nil : run step s [] = s := rfl

@[simp] theorem run_cons (a : α) : run step s (a :: as) = run step (step s a) as := rfl

theorem run_append (as bs : List α) : run step s (as ++ bs) = run step (run step s as) bs :=
  List.foldl_append

theorem AllStates.head (h : AllStates step Q s as) : Q s := by
  cases as with
  | nil => exact h
  | cons a as => exact h.1

/-- **Along a run is at every reachable state**: the states of a run are those its prefixes end
in. -/
theorem allStates_iff_prefixes :
    AllStates step Q s as ↔ ∀ pre, pre <+: as → Q (run step s pre) := by
  induction as generalizing s with
  | nil =>
    simp only [AllStates, List.prefix_nil]
    exact ⟨fun h pre hp => hp ▸ h, fun h => h [] rfl⟩
  | cons a as ih =>
    simp only [AllStates, ih]
    constructor
    · rintro ⟨hs, h⟩ pre hp
      cases pre with
      | nil => exact hs
      | cons b pre =>
        obtain ⟨rfl, hp'⟩ := List.cons_prefix_cons.mp hp
        exact h pre hp'
    · intro h
      exact ⟨h [] List.nil_prefix, fun pre hp => h (a :: pre) (List.cons_prefix_cons.mpr ⟨rfl, hp⟩)⟩

theorem AllStates.run_mem (h : AllStates step Q s as) : Q (run step s as) :=
  allStates_iff_prefixes.mp h as List.prefix_rfl

theorem AllSteps.imp (hPP : ∀ s a, P s a → P' s a) (h : AllSteps step P s as) :
    AllSteps step P' s as := by
  induction as generalizing s with
  | nil => trivial
  | cons a as ih => exact ⟨hPP s a h.1, ih h.2⟩

theorem AllSteps.and (h : AllSteps step P s as) (h' : AllSteps step P' s as) :
    AllSteps step (fun s a => P s a ∧ P' s a) s as := by
  induction as generalizing s with
  | nil => trivial
  | cons a as ih => exact ⟨⟨h.1, h'.1⟩, ih h.2 h'.2⟩

theorem allSteps_and : AllSteps step (fun s a => P s a ∧ P' s a) s as ↔
    AllSteps step P s as ∧ AllSteps step P' s as :=
  ⟨fun h => ⟨h.imp fun _ _ => And.left, h.imp fun _ _ => And.right⟩, fun h => h.1.and h.2⟩

/-- The states of a run are its first one and those behind its steps. -/
theorem allStates_iff_next (hs : Q s) :
    AllStates step Q s as ↔ AllSteps step (fun s a => Q (step s a)) s as := by
  induction as generalizing s with
  | nil => exact ⟨fun _ => trivial, fun _ => hs⟩
  | cons a as ih =>
    simp only [AllStates, AllSteps]
    constructor
    · rintro ⟨-, h⟩
      exact ⟨h.head, (ih h.head).mp h⟩
    · rintro ⟨hnext, h⟩
      exact ⟨hs, (ih hnext).mpr h⟩

theorem allSteps_append {bs : List α} :
    AllSteps step P s (as ++ bs) ↔ AllSteps step P s as ∧ AllSteps step P (run step s as) bs := by
  induction as generalizing s with
  | nil => exact ⟨fun h => ⟨trivial, h⟩, fun h => h.2⟩
  | cons a as ih =>
    simp only [List.cons_append, AllSteps, run_cons, ih, and_assoc]

/-- **The invariant rule.** -/
theorem allStates_of_allSteps (hstep : ∀ s a, Q s → P s a → Q (step s a)) (hs : Q s)
    (h : AllSteps step P s as) : AllStates step Q s as := by
  induction as generalizing s with
  | nil => exact hs
  | cons a as ih => exact ⟨hs, ih (hstep s a hs h.1) h.2⟩

/-- What the steps that satisfy `P` do in the states of an invariant that they keep, they do along every run. -/
theorem allSteps_of_kept (hI : ∀ s a, I s → P s a → I (step s a)) (hPP : ∀ s a, I s → P s a → P' s a) (hs : I s)
    (h : AllSteps step P s as) : AllSteps step P' s as := by
  induction as generalizing s with
  | nil => trivial
  | cons a as ih => exact ⟨hPP s a hs h.1, ih (hI s a hs h.1) h.2⟩

theorem AllStates.imp {Q' : σ → Prop} (hQQ : ∀ s, Q s → Q' s) (h : AllStates step Q s as) :
    AllStates step Q' s as := by
  induction as generalizing s with
  | nil => exact hQQ s h
  | cons a as ih => exact ⟨hQQ s h.1, ih h.2⟩

theorem AllStates.and {Q' : σ → Prop} (h : AllStates step Q s as) (h' : AllStates step Q' s as) :
    AllStates step (fun s => Q s ∧ Q' s) s as := by
  induction as generalizing s with
  | nil => exact ⟨h, h'⟩
  | cons a as ih => exact ⟨⟨h.1, h'.1⟩, ih h.2 h'.2⟩

/-- What every state allows, every step does. -/
theorem AllStates.allSteps (hQP : ∀ s a, Q s → P s a) (h : AllStates step Q s as) :
    AllSteps step P s as := by
  induction as generalizing s with
  | nil => trivial
  | cons a as ih => exact ⟨hQP s a h.1, ih h.2⟩

/-- Properties that agree in the states of an invariant agree along its runs. -/
theorem allStates_congr {Q' : σ → Prop} (hQQ : ∀ s, I s → (Q s ↔ Q' s)) (h : AllStates step I s as) :
    AllStates step Q s as ↔ AllStates step Q' s as := by
  induction as generalizing s with
  | nil => exact hQQ s h
  | cons a as ih => exact and_congr (hQQ s h.1) (ih h.2)

/-- And so do properties of steps. -/
theorem allSteps_congr (hPP : ∀ s a, I s → (P s a ↔ P' s a)) (h : AllStates step I s as) :
    AllSteps step P s as ↔ AllSteps step P' s as := by
  induction as generalizing s with
  | nil => exact Iff.rfl
  | cons a as ih => exact and_congr (hPP s a h.1) (ih h.2)

/-- An invariant that every step keeps holds along every run. -/
theorem allStates_of_step (hstep : ∀ s a, I s → I (step s a)) (hs : I s) :
    AllStates step I s as := by
  induction as generalizing s with
  | nil => exact hs
  | cons a as ih => exact ⟨hs, ih (hstep s a hs)⟩

/-- **The exact rule**: if, in the states of `I` and for steps that satisfy the assumption `A`, a
step keeps `Q` exactly when it satisfies `P`, then a run of such steps keeps `Q` exactly when every
step of it satisfies `P`. The steps that satisfy `P` have to keep `I`. -/
theorem allStates_iff_allSteps_of_kept {A : σ → α → Prop}
    (hI : ∀ s a, I s → A s a → Q s → P s a → I (step s a))
    (hstep : ∀ s a, I s → A s a → Q s → (Q (step s a) ↔ P s a)) (hs : I s) (hq : Q s)
    (hA : AllSteps step A s as) : AllStates step Q s as ↔ AllSteps step P s as := by
  induction as generalizing s with
  | nil => exact ⟨fun _ => trivial, fun _ => hq⟩
  | cons a as ih =>
    obtain ⟨ha, has⟩ := hA
    simp only [AllStates, AllSteps]
    constructor
    · rintro ⟨_, h⟩
      have hp : P s a := (hstep s a hs ha hq).mp h.head
      exact ⟨hp, (ih (hI s a hs ha hq hp) h.head has).mp h⟩
    · rintro ⟨hp, h⟩
      have hq' : Q (step s a) := (hstep s a hs ha hq).mpr hp
      exact ⟨hq, (ih (hI s a hs ha hq hp) hq' has).mpr h⟩

/-- **The exact rule for steps**: if, in the states of `I` and for steps that satisfy `A`, a step satisfies `P` exactly when
it satisfies `P'`, and the steps that satisfy `P'` keep `I`, then a run of such steps satisfies `P` exactly when it
satisfies `P'`. -/
theorem allSteps_iff_of_kept {A : σ → α → Prop} (hI : ∀ s a, I s → A s a → P' s a → I (step s a))
    (hPP : ∀ s a, I s → A s a → (P s a ↔ P' s a)) (hs : I s) (hA : AllSteps step A s as) :
    AllSteps step P s as ↔ AllSteps step P' s as := by
  induction as generalizing s with
  | nil => exact Iff.rfl
  | cons a as ih =>
    obtain ⟨ha, has⟩ := hA
    simp only [AllSteps, hPP s a hs ha]
    exact and_congr_right fun hp => ih (hI s a hs ha hp) has

/-- The exact rule for an invariant that every step keeps. -/
theorem allStates_iff_allSteps {A : σ → α → Prop} (hI : ∀ s a, I s → A s a → I (step s a))
    (hstep : ∀ s a, I s → A s a → Q s → (Q (step s a) ↔ P s a)) (hs : I s) (hq : Q s)
    (hA : AllSteps step A s as) : AllStates step Q s as ↔ AllSteps step P s as :=
  allStates_iff_allSteps_of_kept (fun s a hi ha _ _ => hI s a hi ha) hstep hs hq hA

theorem allSteps_of_mem {p : α → Prop} (h : ∀ a ∈ as, p a) : AllSteps step (fun _ a => p a) s as := by
  induction as generalizing s with
  | nil => trivial
  | cons a as ih =>
    exact ⟨h a List.mem_cons_self, ih fun b hb => h b (List.mem_cons_of_mem a hb)⟩

theorem allSteps_true : AllSteps step (fun _ _ => True) s as := by
  induction as generalizing s with
  | nil => trivial
  | cons a as ih => exact ⟨trivial, ih⟩

/-- **A clock that does not go back**: `Before s t` says that the state `s` knows of nothing behind the time `t`. -/
theorem allSteps_of_ordered {τ : Type*} [LE τ] {time : α → τ} {Before : σ → τ → Prop}
    (hstep : ∀ s a t, Before s (time a) → Before s t → time a ≤ t → Before (step s a) t)
    (h : (as.map time).Pairwise (· ≤ ·)) (hs : ∀ a ∈ as, Before s (time a)) :
    AllSteps step (fun s a => Before s (time a)) s as := by
  induction as generalizing s with
  | nil => trivial
  | cons a as ih =>
    obtain ⟨hafter, hrest⟩ := List.pairwise_cons.mp h
    have ha : Before s (time a) := hs a List.mem_cons_self
    refine ⟨ha, ih hrest fun b hb => ?_⟩
    exact hstep s a (time b) ha (hs b (List.mem_cons_of_mem a hb)) (hafter _ (List.mem_map_of_mem hb))

/-! ## Projections

A map `f` that commutes with the steps of two systems carries runs of one to runs of the other. -/

section Projection

variable {τ : Type*} {step' : τ → α → τ} {f : σ → τ}

theorem run_proj (hf : ∀ s a, f (step s a) = step' (f s) a) :
    f (run step s as) = run step' (f s) as := by
  induction as generalizing s with
  | nil => rfl
  | cons a as ih => rw [run_cons, run_cons, ih, hf]

theorem allSteps_proj (hf : ∀ s a, f (step s a) = step' (f s) a) {P : τ → α → Prop} :
    AllSteps step (fun s a => P (f s) a) s as ↔ AllSteps step' P (f s) as := by
  induction as generalizing s with
  | nil => exact Iff.rfl
  | cons a as ih => simp only [AllSteps, ih, hf]

end Projection

end Runs
