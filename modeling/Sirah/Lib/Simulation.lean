import Sirah.Lib.Run

/-!
# Machines that answer

A machine `step : σ → α → β × σ` answers each action. Two machines whose states are related, and stay so with every
action, which both answer alike, answer every run alike.

* `answers step s as`: the answers of a run. `next step`: the machine without its answers.
* `StepsAlike`: one step of both. **`answers_eq`**: a simulation keeps the answers.
-/

namespace Runs

variable {σ τ α β : Type*}

/-- The answers of a run. -/
def answers (step : σ → α → β × σ) : σ → List α → List β
  | _, [] => []
  | s, a :: as => (step s a).1 :: answers step (step s a).2 as

/-- A machine without its answers. -/
def next (step : σ → α → β × σ) (s : σ) (a : α) : σ := (step s a).2

/-- **A step of both machines**: they answer alike, and the states they reach are related. -/
structure StepsAlike (R : σ → τ → Prop) (step : σ → α → β × σ) (step' : τ → α → β × τ) (s : σ) (t : τ) (a : α) :
    Prop where
  answer : (step s a).1 = (step' t a).1
  after : R (step s a).2 (step' t a).2

variable {R : σ → τ → Prop} {step : σ → α → β × σ} {step' : τ → α → β × τ} {s : σ} {t : τ}

/-- **A simulation keeps the answers.** -/
theorem answers_eq (hstep : ∀ s t a, R s t → StepsAlike R step step' s t a) (h : R s t) (as : List α) :
    answers step s as = answers step' t as := by
  induction as generalizing s t with
  | nil => rfl
  | cons a as ih =>
    have ha := hstep s t a h
    rw [answers, answers, ha.answer, ih ha.after]

end Runs
