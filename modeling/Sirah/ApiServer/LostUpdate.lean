import Sirah.ApiServer.CasHandler
import Sirah.Lib.Run

/-!
# Lost updates under optimistic concurrency

Any number of clients share the tracker of `CasHandler.lean`. Each runs `cas_check_version(o, v)` and,
when it answers `CAS_RESULT_OK`, mutates the object and calls `cas_mark_updated(o)`. The two calls
take their locks separately, so a client is a program with a counter `Pc` between its critical
sections:

* `idle` —`check`→ reads `initialized` outside any lock (`cas_handler_init`);
* `initialising` —`init`→ the locked `memset`;
* `lookingUp` —`lookup`→ `get_object_version`; `NULL` ends the call with `CAS_RESULT_ERROR`;
* `reading` —`read`→ compares the slot's version with the expected one;
* `passed` —`mutate`→ `get_object_version` of `cas_mark_updated`, or —`giveUp`→ the client drops out;
* `marking` —`bump`→ the slot gets the next version, and the client has marked the object updated.

An interleaving is a list of actions; an action whose client is elsewhere does nothing. `marked`
records who marked which object from which version.

`NoLostUpdate` says that at most one client marked an object from one version of it. Nothing in the
code ties the bump to the check, so two clients that pass the same check both mark
(`two_clients_mark_one_version`). **`no_lost_update`**: the law holds along every run in which each
bump still finds the version its client checked, and the 64-bit counter does not wrap.
-/

namespace Sirah.CasHandler

open Runs

/-- Where a client stands between its critical sections. -/
inductive Pc where
  | idle
  | initialising (o : ObjectRef) (v : Nat)
  | lookingUp (o : ObjectRef) (v : Nat)
  | reading (o : ObjectRef) (v : Nat) (slot : Nat)
  | passed (o : ObjectRef) (v : Nat)
  | marking (o : ObjectRef) (v : Nat) (slot : Nat)
  deriving DecidableEq, Repr

/-- A completed `cas_mark_updated` of `obj` by a client whose check was made with `version`. -/
structure Mark where
  client : Nat
  obj : ObjectRef
  version : Nat
  deriving DecidableEq, Repr

/-- The tracker, the clients and the marks made so far. -/
structure World where
  tracker : Tracker
  pc : Nat → Pc
  marked : List Mark

/-- Process start: every client idle. -/
def World.start : World := ⟨Tracker.start, fun _ => .idle, []⟩

/-- One client moves to `p`; the tracker becomes `t`. -/
def World.move (w : World) (c : Nat) (p : Pc) (t : Tracker) : World :=
  { w with tracker := t, pc := fun d => if d = c then p else w.pc d }

/-- The critical sections, each by client `c`. -/
inductive Act where
  | check (c : Nat) (o : ObjectRef) (v : Nat)
  | init (c : Nat)
  | lookup (c : Nat)
  | read (c : Nat)
  | mutate (c : Nat)
  | bump (c : Nat)
  | giveUp (c : Nat)
  deriving DecidableEq, Repr

/-- One critical section. -/
def step (w : World) : Act → World
  | .check c o v =>
    match w.pc c with
    | .idle => w.move c (if w.tracker.initialized then .lookingUp o v else .initialising o v) w.tracker
    | _ => w
  | .init c =>
    match w.pc c with
    | .initialising o v => w.move c (.lookingUp o v) (resetObjects w.tracker)
    | _ => w
  | .lookup c =>
    match w.pc c with
    | .lookingUp o v =>
      match getObjectVersion w.tracker o with
      | (none, t) => w.move c .idle t
      | (some i, t) => w.move c (.reading o v i) t
    | _ => w
  | .read c =>
    match w.pc c with
    | .reading o v i =>
      w.move c (if v ≠ slotVersion w.tracker i then .idle else .passed o v) w.tracker
    | _ => w
  | .mutate c =>
    match w.pc c with
    | .passed o v =>
      match getObjectVersion w.tracker o with
      | (none, t) => w.move c .idle t
      | (some i, t) => w.move c (.marking o v i) t
    | _ => w
  | .bump c =>
    match w.pc c with
    | .marking o v i =>
      { w.move c .idle (bumpSlot w.tracker i) with marked := ⟨c, o, v⟩ :: w.marked }
    | _ => w
  | .giveUp c =>
    match w.pc c with
    | .passed _ _ => w.move c .idle w.tracker
    | _ => w

/-- **The law**: an object is marked updated from one of its versions at most once. -/
def NoLostUpdate (w : World) : Prop :=
  ∀ o v, (w.marked.filter fun m => m.obj = o ∧ m.version = v).length ≤ 1

/-- The step draws no version past `2^64 - 1`, and a bump still finds the version its client
checked recorded for the object. -/
def current (w : World) : Act → Bool
  | .lookup _ => decide (w.tracker.currentVersion + 1 < 2 ^ 64)
  | .mutate _ => decide (w.tracker.currentVersion + 1 < 2 ^ 64)
  | .bump c =>
    decide (w.tracker.currentVersion + 1 < 2 ^ 64) &&
      match w.pc c with
      | .marking o v i => decide (w.tracker.slots[i]? = some ⟨some (generateKey o), v⟩)
      | _ => true
  | _ => true

/-! ## Fresh versions -/

/-- What every run of `current` steps keeps. A keyed slot is one in use. -/
structure Inv (w : World) : Prop where
  /-- The versions in use were drawn from the counter. -/
  bound : ∀ (i : Nat) (s : Slot), w.tracker.slots[i]? = some s → s.key ≠ none →
    s.version ≤ w.tracker.currentVersion
  /-- No two slots in use have one version. -/
  distinct : ∀ (i j : Nat) (s u : Slot), w.tracker.slots[i]? = some s →
    w.tracker.slots[j]? = some u → s.key ≠ none → u.key ≠ none → s.version = u.version → i = j
  /-- A version marked from was drawn from the counter, and is in use no more. -/
  spent : ∀ m ∈ w.marked, m.version ≤ w.tracker.currentVersion ∧
    ∀ (i : Nat) (s : Slot), w.tracker.slots[i]? = some s → s.key ≠ none → s.version ≠ m.version
  /-- No version was marked from twice. -/
  once : (w.marked.map Mark.version).Nodup

theorem inv_start : Inv World.start where
  bound i s h := by simp [World.start, Tracker.start] at h
  distinct i j s u h := by simp [World.start, Tracker.start] at h
  spent m h := by simp [World.start] at h
  once := List.nodup_nil

/-- Moving a client while the tracker stays keeps the invariant. -/
theorem inv_move {w : World} (h : Inv w) (c : Nat) (p : Pc) : Inv (w.move c p w.tracker) :=
  ⟨h.bound, h.distinct, h.spent, h.once⟩

/-- The `memset` leaves no slot in use. -/
theorem inv_reset {w : World} (h : Inv w) (c : Nat) (p : Pc) :
    Inv (w.move c p (resetObjects w.tracker)) := by
  have hfree : ∀ (i : Nat) (s : Slot), (resetObjects w.tracker).slots[i]? = some s → s.key = none := by
    intro i s hs
    simp only [resetObjects, List.getElem?_map, Option.map_eq_some_iff] at hs
    obtain ⟨_, -, rfl⟩ := hs
    rfl
  exact
    { bound := fun i s hs hk => absurd (hfree i s hs) hk
      distinct := fun i j s u hs _ hk => absurd (hfree i s hs) hk
      spent := fun m hm =>
        ⟨(h.spent m hm).1, fun i s hs hk => absurd (hfree i s hs) hk⟩
      once := h.once }

/-- Stamping a slot with the next version keeps the invariant: the version is above every version
in use or spent. -/
theorem inv_stamp {w : World} (h : Inv w) {i : Nat} (hi : i ≤ w.tracker.slots.length)
    (hw : w.tracker.currentVersion + 1 < 2 ^ 64) (c : Nat) (p : Pc) (k : Option CString) :
    Inv (w.move c p (stamp w.tracker i k)) := by
  have hnext : resourceVersionNext w.tracker = w.tracker.currentVersion + 1 := Nat.mod_eq_of_lt hw
  have hget : ∀ j, (stamp w.tracker i k).slots[j]? =
      if j = i then some ⟨k, w.tracker.currentVersion + 1⟩ else w.tracker.slots[j]? := by
    intro j
    rw [← hnext]
    exact writeSlot_getElem? hi _ j
  have hcur : (stamp w.tracker i k).currentVersion = w.tracker.currentVersion + 1 := hnext
  refine ⟨?_, ?_, ?_, h.once⟩
  · intro j s hs hk
    simp only [World.move, hget, hcur] at hs ⊢
    split at hs
    · obtain rfl := Option.some.inj hs
      exact le_refl _
    · exact Nat.le_succ_of_le (h.bound j s hs hk)
  · intro j l s u hs hu hsk huk hv
    simp only [World.move, hget] at hs hu
    split at hs <;> split at hu
    · omega
    · obtain rfl := Option.some.inj hs
      have := h.bound l u hu huk
      simp only at hv
      omega
    · obtain rfl := Option.some.inj hu
      have := h.bound j s hs hsk
      simp only at hv
      omega
    · exact h.distinct j l s u hs hu hsk huk hv
  · intro m hm
    obtain ⟨hle, hne⟩ := h.spent m hm
    refine ⟨?_, fun j s hs hk => ?_⟩
    · simp only [World.move, hcur]; omega
    · simp only [World.move, hget] at hs
      split at hs
      · obtain rfl := Option.some.inj hs
        simp only
        omega
      · exact hne j s hs hk

/-- A lookup keeps the invariant, whatever its client does next. -/
theorem inv_getObjectVersion {w : World} (h : Inv w)
    (hw : w.tracker.currentVersion + 1 < 2 ^ 64) (o : ObjectRef) (c : Nat) (p : Pc) :
    Inv (w.move c p (getObjectVersion w.tracker o).2) := by
  rcases getObjectVersion_cases w.tracker o with ⟨i, s, hg, -⟩ | ⟨i, hi, -, hg⟩ | hg
  · rw [hg]; exact inv_move h c p
  · rw [hg]; exact inv_stamp h hi hw c p _
  · rw [hg]; exact inv_move h c p

/-- A bump that finds the checked version spends it: it is in no slot afterwards. -/
theorem inv_bump {w : World} (h : Inv w) (hw : w.tracker.currentVersion + 1 < 2 ^ 64) {c i v : Nat}
    {o : ObjectRef} (hs : w.tracker.slots[i]? = some ⟨some (generateKey o), v⟩) :
    Inv { w.move c .idle (bumpSlot w.tracker i) with marked := ⟨c, o, v⟩ :: w.marked } := by
  have hlt : i < w.tracker.slots.length := (List.getElem?_eq_some_iff.mp hs).1
  have hst : Inv (w.move c .idle (bumpSlot w.tracker i)) := inv_stamp h hlt.le hw c .idle _
  have hnext : resourceVersionNext w.tracker = w.tracker.currentVersion + 1 := Nat.mod_eq_of_lt hw
  have hv : v ≤ w.tracker.currentVersion := h.bound i _ hs (by simp)
  have hget : ∀ j, (bumpSlot w.tracker i).slots[j]? =
      if j = i then some ⟨some (generateKey o), w.tracker.currentVersion + 1⟩
      else w.tracker.slots[j]? := by
    intro j
    rw [← hnext]
    have := writeSlot_getElem? hlt.le ⟨(w.tracker.slots[i]?).bind Slot.key,
      resourceVersionNext w.tracker⟩ j
    simpa [bumpSlot, stamp, hs] using this
  refine ⟨hst.bound, hst.distinct, ?_, ?_⟩
  · intro m hm
    rcases List.mem_cons.mp hm with rfl | hm
    · refine ⟨?_, fun j s hj hk hsv => ?_⟩
      · show v ≤ resourceVersionNext w.tracker
        omega
      · simp only [World.move, hget] at hj
        split at hj
        · obtain rfl := Option.some.inj hj
          simp only at hsv
          omega
        · rename_i hji
          -- Another slot in use with version `v` would have been a second one before the bump.
          exact hji (h.distinct j i s _ hj hs hk (by simp) hsv)
    · exact hst.spent m hm
  · rw [List.map_cons, List.nodup_cons]
    refine ⟨fun hm => ?_, h.once⟩
    obtain ⟨m, hm, hmv⟩ := List.mem_map.mp hm
    exact (h.spent m hm).2 i _ hs (by simp) hmv.symm

/-- **One critical section** keeps the invariant when it is `current`. -/
theorem step_inv {w : World} {a : Act} (h : Inv w) (hc : current w a = true) : Inv (step w a) := by
  cases a with
  | check c o v =>
    simp only [step]
    split
    · exact inv_move h c _
    · exact h
  | init c =>
    simp only [step]
    split
    · exact inv_reset h c _
    · exact h
  | lookup c =>
    simp only [current, decide_eq_true_eq] at hc
    simp only [step]
    split
    · rename_i o v _
      have hg := inv_getObjectVersion h hc o c
      split <;> rename_i hgo <;> rw [hgo] at hg <;> exact hg _
    · exact h
  | read c =>
    simp only [step]
    split
    · exact inv_move h c _
    · exact h
  | mutate c =>
    simp only [current, decide_eq_true_eq] at hc
    simp only [step]
    split
    · rename_i o v _
      have hg := inv_getObjectVersion h hc o c
      split <;> rename_i hgo <;> rw [hgo] at hg <;> exact hg _
    · exact h
  | bump c =>
    simp only [current, Bool.and_eq_true, decide_eq_true_eq] at hc
    simp only [step]
    split
    · rename_i o v i hpc
      have hs := hc.2
      rw [hpc] at hs
      exact inv_bump h hc.1 (of_decide_eq_true hs)
    · exact h
  | giveUp c =>
    simp only [step]
    split
    · exact inv_move h c _
    · exact h

/-- A version marked from at most once is marked from at most once for each object. -/
theorem noLostUpdate_of_inv {w : World} (h : Inv w) : NoLostUpdate w := by
  intro o v
  have hsub : (w.marked.filter fun m => m.obj = o ∧ m.version = v).Sublist w.marked :=
    List.filter_sublist
  have hnd := (h.once).sublist (hsub.map Mark.version)
  have hall : ∀ x ∈ (w.marked.filter fun m => m.obj = o ∧ m.version = v).map Mark.version, x = v := by
    intro x hx
    obtain ⟨m, hm, rfl⟩ := List.mem_map.mp hx
    have := (List.mem_filter.mp hm).2
    simp only [decide_eq_true_eq] at this
    exact this.2
  have hrep := List.eq_replicate_iff.mpr ⟨rfl, hall⟩
  rw [hrep, List.nodup_replicate, List.length_map] at hnd
  exact hnd

/-- **No lost update while every bump finds the version it checked**: in every state of a run whose
steps are all `current`, at most one client has marked an object from one version of it. -/
theorem no_lost_update {as : List Act} (h : AllSteps step (fun w a => current w a = true) World.start as) :
    AllStates step NoLostUpdate World.start as := by
  have hinv : AllStates step Inv World.start as :=
    allStates_of_allSteps (fun _ _ hI hc => step_inv hI hc) inv_start h
  rw [allStates_iff_prefixes] at hinv ⊢
  exact fun pre hpre => noLostUpdate_of_inv (hinv pre hpre)

/-- The object of the runs below. -/
def web : ObjectRef := ⟨"pods", "default", "web"⟩

/-- One client after the other: the second one's check of the old version answers a conflict. -/
theorem no_lost_update_one_after_other :
    NoLostUpdate (run step World.start
      [.check 0 web 1001, .init 0, .lookup 0, .read 0, .mutate 0, .bump 0,
       .check 1 web 1001, .lookup 1, .read 1, .mutate 1, .bump 1]) :=
  (no_lost_update (by decide)).run_mem

/-- **The lost update.** Two clients check version 1001 of one object before either bumps it; both
are told `CAS_RESULT_OK` and both mark the object updated. -/
theorem two_clients_mark_one_version :
    ¬ NoLostUpdate (run step World.start
      [.check 0 web 1001, .init 0, .lookup 0, .read 0, .check 1 web 1001, .lookup 1, .read 1,
       .mutate 0, .bump 0, .mutate 1, .bump 1]) := by
  intro h
  exact absurd (h web 1001) (by decide)

end Sirah.CasHandler
