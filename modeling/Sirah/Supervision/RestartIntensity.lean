import Sirah.Lib.Series
import Sirah.Supervision.SupervisionTree

/-!
# How often a child is restarted

The monitor thread of `internal/kubelet/agent_supervision.c` keeps two numbers for a child: how often it restarted it,
and when it last did. The count starts again when the last restart is longer ago than the window. A restart counts from
the time at which it is decided on, which is what `last_restart_time` records.

* `Watched` is a child with the times of its restarts, the latest first, and a step is the end of its process: what a scan
  does to a child is nothing or this (`scan_child`).
* **`restarts_limited`**: no interval as long as the window holds more than `max_restarts` restarts. Where the clock is
  past the epoch, the process is restarted **iff** the series of restarts before its end has fewer than that.
* `epoch_is_no_restart`: a `last_restart_time` of 0 stands for no restart, so one at the time 0 is never too long ago.
-/

namespace Sirah.SupervisionTree

open Runs Series

/-- A child and its restarts. -/
structure Watched where
  child : Child
  restarts : List Int

/-- The end of a process that the monitor thread sees, with what `fork` finds and answers at a restart. -/
structure Exit where
  status : ExitStatus
  now : Int
  procs : Int → Proc
  answer : Option Int

/-- **A scan** leaves a child as it was, or sees that its process ended. -/
theorem scan_child {children : List Child} {i : Nat} {child : Child} (h : children[i]? = some child) (now : Int)
    (procs : Int → Proc) : (scan now children procs).children[i]? = some child ∨
      ∃ status, (scan now children procs).children[i]? = some (child.exited status now).1 := by
  induction children generalizing i procs with
  | nil => cases h
  | cons first children ih =>
    rw [scan]
    cases i with
    | zero =>
      obtain rfl : first = child := Option.some.inj h
      split
      · split
        · next status _ =>
          refine .inr ⟨status, ?_⟩
          dsimp only
          split <;> next heq => rw [heq]; rfl
        · exact .inl rfl
      · exact .inl rfl
    | succ i =>
      split
      · split
        · dsimp only
          split
          · exact .inl h
          · exact ih h _
        · exact ih h procs
      · exact ih h procs

namespace Watched

/-- A permanent child that was added, with its policy. -/
def added (id : CString) (maxRestarts : Nat) (maxRestartWindowSecs : Int) : Watched :=
  ⟨.create id .permanent maxRestarts maxRestartWindowSecs, []⟩

/-- Does the monitor thread decide to restart the child? -/
def restarted (s : Watched) (e : Exit) : Bool := (s.child.exited e.status e.now).2.isSome

/-- The monitor thread sees the end of the process. -/
def step (s : Watched) (e : Exit) : Watched :=
  if s.restarted e then ⟨((s.child.exited e.status e.now).1.start e.procs e.answer).1, e.now :: s.restarts⟩
  else ⟨(s.child.exited e.status e.now).1, s.restarts⟩

/-- **No interval as long as the window holds more restarts** than the policy has. -/
def Bounded (m : Nat) (w : Int) (s : Watched) : Prop :=
  ∀ a : Int, (s.restarts.filter fun r => decide (a ≤ r ∧ r ≤ a + w)).length ≤ m

/-- **A restart is decided on exactly** if the longest series of restarts before the exit has fewer than `m`. -/
def Decided (m : Nat) (w : Int) (s : Watched) (e : Exit) : Prop :=
  ∀ series, IsSeries w e.now s.restarts series → (s.restarted e = true ↔ series.length < m)

/-! ## The counter -/

/-- The counter as an exit at the time `now` finds it. -/
def countAt (child : Child) (now : Int) : Nat :=
  if 0 < child.lastRestartTime ∧ child.maxRestartWindowSecs < now - child.lastRestartTime then 0 else child.restartCount

/-- **The end of a permanent child's process.** -/
theorem exited_cases {child : Child} (h : child.type = .permanent) (status : ExitStatus) (now : Int) :
    (countAt child now < child.maxRestarts ∧ ∃ delay, child.exited status now =
      ({ child with
          running := false, lastExitCode := some status, restartCount := countAt child now + 1,
          lastRestartTime := now }, some delay)) ∨
      (child.maxRestarts ≤ countAt child now ∧ child.exited status now =
        ({ child with running := false, lastExitCode := some status, restartCount := countAt child now }, none)) := by
  have hrestart : shouldRestart child.type status = true := by
    rw [h]
    rfl
  unfold Child.exited
  simp only [hrestart, true_and]
  by_cases hlt : countAt child now < child.maxRestarts
  · exact .inl ⟨hlt, _, if_pos hlt⟩
  · refine .inr ⟨Nat.le_of_not_lt hlt, ?_⟩
    exact (if_neg hlt).trans (if_neg Bool.noConfusion)

/-- The restarts of the series that is going on. -/
def current (w : Int) : List Int → Nat
  | [] => 0
  | r :: ts => (series w r ts).length + 1

/-- **The invariant**: the counter has at least the restarts of the series that is going on, and exactly these where no
restart is at or before the epoch. -/
structure Inv (m : Nat) (w : Int) (s : Watched) : Prop where
  permanent : s.child.type = .permanent
  maxRestarts : s.child.maxRestarts = m
  window : s.child.maxRestartWindowSecs = w
  last : s.child.lastRestartTime = s.restarts.headD 0
  sorted : s.restarts.Pairwise (· ≥ ·)
  limited : Limited w m s.restarts
  count_le : s.child.restartCount ≤ m
  covers : current w s.restarts ≤ s.child.restartCount
  exact : (∀ r ∈ s.restarts, 0 < r) → s.child.restartCount = current w s.restarts

variable {m : Nat} {w : Int} {s : Watched} {e : Exit}

theorem inv_added (id : CString) (m : Nat) (w : Int) : Inv m w (added id m w) :=
  ⟨rfl, rfl, rfl, rfl, List.Pairwise.nil, trivial, Nat.zero_le m, Nat.zero_le 0, fun _ => rfl⟩

/-- The counter is reset, or as it was. -/
theorem countAt_le (child : Child) (now : Int) : countAt child now ≤ child.restartCount := by
  unfold countAt
  split
  · exact Nat.zero_le _
  · exact Nat.le_refl _

/-- **An exit finds in the counter** at least the series before it, and no more where all restarts are past the epoch. -/
theorem Inv.countAt (h : Inv m w s) (now : Int) : (series w now s.restarts).length ≤ countAt s.child now ∧
    ((∀ r ∈ s.restarts, 0 < r) → countAt s.child now = (series w now s.restarts).length) := by
  have hcovers := h.covers
  have hexact := h.exact
  have hlast := h.last
  have hcases : Watched.countAt s.child now =
      if 0 < s.restarts.headD 0 ∧ w < now - s.restarts.headD 0 then 0 else s.child.restartCount := by
    unfold Watched.countAt
    rw [h.last, h.window]
  rw [hcases]
  cases hr : s.restarts with
  | nil =>
    rw [hr] at hexact
    rw [List.headD_nil, if_neg fun hpos => absurd hpos.1 (Int.lt_irrefl 0)]
    exact ⟨Nat.zero_le _, hexact⟩
  | cons r ts =>
    rw [hr] at hcovers hexact
    rw [List.headD_cons]
    by_cases hnear : now ≤ r + w
    · rw [series_cons_of_le hnear, List.length_cons, if_neg fun hfar => by omega]
      exact ⟨hcovers, hexact⟩
    · rw [series_cons_of_not_le hnear]
      refine ⟨Nat.zero_le _, fun hpos => if_pos ⟨hpos r List.mem_cons_self, by omega⟩⟩

/-- No restart is behind the time. -/
def Before (s : Watched) (t : Int) : Prop := ∀ r ∈ s.restarts, r ≤ t

/-- What `fork` answers changes neither the counter nor the policy. -/
theorem start_frame (child : Child) (procs : Int → Proc) (answer : Option Int) :
    (child.start procs answer).1.type = child.type ∧ (child.start procs answer).1.maxRestarts = child.maxRestarts ∧
      (child.start procs answer).1.maxRestartWindowSecs = child.maxRestartWindowSecs ∧
      (child.start procs answer).1.lastRestartTime = child.lastRestartTime ∧
      (child.start procs answer).1.restartCount = child.restartCount := by
  obtain hfail | ⟨pid, -, -, hstart⟩ := start_cases child procs answer
  · rw [hfail]
    exact ⟨rfl, rfl, rfl, rfl, rfl⟩
  · rw [hstart]
    exact ⟨rfl, rfl, rfl, rfl, rfl⟩

/-- **A restart is decided on** if the counter that the exit finds is below the limit. -/
theorem Inv.restarted_iff (h : Inv m w s) (e : Exit) : s.restarted e = true ↔ Watched.countAt s.child e.now < m := by
  unfold restarted
  rw [← h.maxRestarts]
  rcases exited_cases h.permanent e.status e.now with ⟨hlt, delay, heq⟩ | ⟨hle, heq⟩
  · rw [heq]
    exact iff_of_true rfl hlt
  · rw [heq]
    exact iff_of_false Bool.false_ne_true (Nat.not_lt_of_le hle)

theorem inv_step (e : Exit) (h : Inv m w s) (htime : Before s e.now) : Inv m w (s.step e) := by
  obtain ⟨hseries, hexact⟩ := h.countAt e.now
  have hdecision := h.restarted_iff e
  unfold step
  rcases exited_cases h.permanent e.status e.now with ⟨hlt, delay, heq⟩ | ⟨hle, heq⟩
  · rw [h.maxRestarts] at hlt
    rw [if_pos (hdecision.mpr hlt), heq]
    obtain ⟨htype, hmax, hwindow, hlast, hcount⟩ := start_frame
      { s.child with
        running := false, lastExitCode := some e.status, restartCount := Watched.countAt s.child e.now + 1,
        lastRestartTime := e.now } e.procs e.answer
    exact {
      permanent := htype.trans h.permanent
      maxRestarts := hmax.trans h.maxRestarts
      window := hwindow.trans h.window
      last := hlast
      sorted := List.pairwise_cons.mpr ⟨htime, h.sorted⟩
      limited := ⟨Nat.le_trans (Nat.succ_le_succ hseries) hlt, h.limited⟩
      count_le := hcount.trans_le hlt
      covers := Nat.le_trans (Nat.succ_le_succ hseries) hcount.ge
      exact := fun hpos =>
        hcount.trans (congrArg (· + 1) (hexact fun r hr => hpos r (List.mem_cons_of_mem _ hr))) }
  · rw [h.maxRestarts] at hle
    rw [if_neg fun hrestart => Nat.not_lt_of_le hle (hdecision.mp hrestart), heq]
    -- the counter is not reset: it was at the limit, or the limit is zero
    have hkept : Watched.countAt s.child e.now = s.child.restartCount :=
      Nat.le_antisymm (countAt_le _ _) (Nat.le_trans h.count_le hle)
    exact { h with
      count_le := by
        dsimp only
        rw [hkept]
        exact h.count_le
      covers := by
        dsimp only
        rw [hkept]
        exact h.covers
      exact := by
        dsimp only
        rw [hkept]
        exact h.exact }

/-- In the states of the invariant, an interval holds no more restarts than are allowed. -/
theorem Inv.bounded (h : Inv m w s) : Bounded m w s := by
  intro a
  rw [← List.countP_eq_length_filter]
  exact h.limited.countP_window_le h.sorted a

/-- **The decision**, where all restarts are past the epoch. -/
theorem Inv.decided (h : Inv m w s) (e : Exit) (hpos : ∀ r ∈ s.restarts, 0 < r) : Decided m w s e := by
  intro series hseries
  rw [h.restarted_iff, (h.countAt e.now).2 hpos, isSeries_iff.mp hseries]

/-! ## Runs -/

theorem restarts_step (s : Watched) (e : Exit) : (s.step e).restarts = s.restarts ∨
    (s.step e).restarts = e.now :: s.restarts := by
  unfold step
  split
  · exact .inr rfl
  · exact .inl rfl

theorem before_step (e : Exit) (t : Int) (h : Before s t) (he : e.now ≤ t) : Before (s.step e) t := by
  intro r hr
  rcases restarts_step s e with heq | heq <;> rw [heq] at hr
  · exact h r hr
  · rcases List.mem_cons.mp hr with rfl | hr
    · exact he
    · exact h r hr

/-- **Restarts are limited**, for every sequence of exits and a clock that does not go back. -/
theorem restarts_limited (id : CString) (m : Nat) (w : Int) (exits : List Exit)
    (h : (exits.map Exit.now).Pairwise (· ≤ ·)) :
    AllStates step (Bounded m w) (added id m w) exits ∧
      ((∀ e ∈ exits, 0 < e.now) → AllSteps step (Decided m w) (added id m w) exits) := by
  have htime : AllSteps step (fun s e => Before s e.now) (added id m w) exits :=
    allSteps_of_ordered (fun _ e t _ hs he => before_step e t hs he) h fun _ _ => List.forall_mem_nil _
  refine ⟨?_, fun hpos => ?_⟩
  · have hinv := allStates_of_allSteps (fun _ e hinv htime => inv_step e hinv htime) (inv_added id m w) htime
    exact hinv.imp fun _ hinv => hinv.bounded
  · refine allSteps_of_kept (I := fun s => Inv m w s ∧ ∀ r ∈ s.restarts, 0 < r)
      (fun s e hs he => ⟨inv_step e hs.1 he.1, fun r hr => ?_⟩) (fun s e hs _ => hs.1.decided e hs.2)
      ⟨inv_added id m w, List.forall_mem_nil _⟩ (htime.and (allSteps_of_mem hpos))
    rcases restarts_step s e with heq | heq <;> rw [heq] at hr
    · exact hs.2 r hr
    · rcases List.mem_cons.mp hr with rfl | hr
      · exact he.2
      · exact hs.2 r hr

/-- A process that returns, and is started as 100. -/
def exitAt (now : Int) : Exit := ⟨.exited 0, now, fun _ => .free, some 100⟩

theorem restarts_limited_two : AllStates step (Bounded 1 10) (added "worker" 1 10) [exitAt 5, exitAt 100] ∧
    ((∀ e ∈ [exitAt 5, exitAt 100], 0 < e.now) →
      AllSteps step (Decided 1 10) (added "worker" 1 10) [exitAt 5, exitAt 100]) :=
  restarts_limited "worker" 1 10 [exitAt 5, exitAt 100] (by decide)

/-- **A restart at the time 0 counts for ever**: a hundred seconds later the series is over, and the child is not
restarted. -/
theorem epoch_is_no_restart : ¬ ∀ (id : CString) (m : Nat) (w : Int) (exits : List Exit),
    (exits.map Exit.now).Pairwise (· ≤ ·) →
      AllStates step (Bounded m w) (added id m w) exits ∧ AllSteps step (Decided m w) (added id m w) exits := by
  intro h
  have hdecided := (h "worker" 1 10 [exitAt 0, exitAt 100] (by decide)).2.2.1
  have hseries : IsSeries 10 (exitAt 100).now (step (added "worker" 1 10) (exitAt 0)).restarts [] :=
    isSeries_iff.mpr rfl
  exact absurd ((hdecided [] hseries).mpr Nat.one_pos) (by decide)

end Watched

end Sirah.SupervisionTree
