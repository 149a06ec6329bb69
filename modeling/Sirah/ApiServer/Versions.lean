import Sirah.ApiServer.CasHandler
import Sirah.Lib.Run

/-!
# Versions of objects

One caller uses the tracker of `sirah/internal/apiserver/cas_handler.c` from process start, through
`cas_get_version`, `cas_check_version` and `cas_mark_updated` in any order. `version?` reads the tracker as
a map from keys to versions; `log` is every version ever assigned, with the key it was for, the last one
first.

Only `cas_check_version` calls `cas_handler_init`, whose first run clears the table: what the other two
calls put there before is gone, and a check of such an object answers by a version that was made up for it.

* **`versions_consistent`**: versions are fresh, grow, and a check accepts exactly what a get would return,
  along every run whose first check is for an object that is not tracked yet, while the table has a free
  slot and the 64-bit counter does not wrap.
* `first_check_conflicts`: get, then check what was got.
-/

namespace Sirah.CasHandler.Versions

open Runs

/-! ## The tracker as a map -/

/-- The version the tracker holds for a key. -/
def version? (t : Tracker) (k : CString) : Option Nat :=
  (t.slots.find? fun s => s.key = some k).map Slot.version

/-- Slot `i` is the first of the key, with version `v`. -/
structure At (t : Tracker) (i : Nat) (k : CString) (v : Nat) : Prop where
  slot : t.slots[i]? = some ⟨some k, v⟩
  first : ∀ j < i, ∀ u : Slot, t.slots[j]? = some u → u.key ≠ some k

/-- The next version is assigned to the key, and nothing else changes. -/
structure Assigns (t : Tracker) (k : CString) (t' : Tracker) : Prop where
  version : ∀ k', version? t' k' = if k' = k then some (resourceVersionNext t) else version? t k'
  counter : t'.currentVersion = resourceVersionNext t

variable {t t' : Tracker} {i : Nat} {k : CString} {v : Nat}

theorem version?_eq_some_iff : version? t k = some v ↔ ∃ i, At t i k v := by
  unfold version?
  rw [Option.map_eq_some_iff]
  constructor
  · rintro ⟨s, hs, rfl⟩
    obtain ⟨hkey, i, hi, rfl, hfirst⟩ := List.find?_eq_some_iff_getElem.mp hs
    have hkey' : t.slots[i].key = some k := by simpa using hkey
    refine ⟨i, ?_, ?_⟩
    · rw [List.getElem?_eq_getElem hi, ← hkey']
    · intro j hj u hu
      obtain ⟨hlt, rfl⟩ := List.getElem?_eq_some_iff.mp hu
      simpa using hfirst j hj
  · rintro ⟨i, hslot, hfirst⟩
    obtain ⟨hi, hget⟩ := List.getElem?_eq_some_iff.mp hslot
    refine ⟨⟨some k, v⟩, List.find?_eq_some_iff_getElem.mpr ⟨by simp, i, hi, hget, ?_⟩, rfl⟩
    intro j hj
    simpa using hfirst j hj _ (List.getElem?_eq_getElem (hj.trans hi))

theorem version?_eq_none_iff :
    version? t k = none ↔ ∀ (i : Nat) (u : Slot), t.slots[i]? = some u → u.key ≠ some k := by
  unfold version?
  rw [Option.map_eq_none_iff, List.find?_eq_none]
  constructor
  · intro h i u hu
    simpa using h u (List.mem_of_getElem? hu)
  · intro h u hu
    obtain ⟨i, hi⟩ := List.mem_iff_getElem?.mp hu
    simpa using h i u hi

theorem At.slotVersion (h : At t i k v) : slotVersion t i = v := by
  unfold CasHandler.slotVersion
  rw [h.slot]
  rfl

/-- **Stamping** the first slot of a key, or a free slot for a key that is not tracked. -/
theorem assigns_stamp (hi : i ≤ t.slots.length)
    (hfirst : ∀ j < i, ∀ u : Slot, t.slots[j]? = some u → u.key ≠ some k)
    (hold : ∀ u, t.slots[i]? = some u → u.key = none ∨ u.key = some k) :
    At (stamp t i (some k)) i k (resourceVersionNext t) ∧ Assigns t k (stamp t i (some k)) := by
  have hget : ∀ j, (stamp t i (some k)).slots[j]? =
      if j = i then some ⟨some k, resourceVersionNext t⟩ else t.slots[j]? := writeSlot_getElem? hi _
  have hat : At (stamp t i (some k)) i k (resourceVersionNext t) := by
    refine ⟨by rw [hget, if_pos rfl], ?_⟩
    intro j hj u hu
    rw [hget, if_neg (Nat.ne_of_lt hj)] at hu
    exact hfirst j hj u hu
  refine ⟨hat, ?_, rfl⟩
  intro k'
  split
  · next heq =>
    subst heq
    exact version?_eq_some_iff.mpr ⟨i, hat⟩
  · next hne =>
    -- the slot is of neither table's entries for another key
    have hother : ∀ (j : Nat) (u : Slot), u.key = some k' →
        ((stamp t i (some k)).slots[j]? = some u ↔ t.slots[j]? = some u) := by
      intro j u hu
      rw [hget]
      split
      · next hj =>
        subst hj
        refine iff_of_false ?_ fun hslot => ?_
        · rintro ⟨⟩
          exact hne (Option.some.inj hu).symm
        · rcases hold u hslot with hnone | hsame
          · rw [hnone] at hu
            cases hu
          · exact hne (Option.some.inj (hu.symm.trans hsame))
      · exact Iff.rfl
    refine Option.ext fun v => ?_
    rw [version?_eq_some_iff, version?_eq_some_iff]
    refine exists_congr fun j => ⟨fun h => ⟨(hother j _ rfl).mp h.slot, ?_⟩,
      fun h => ⟨(hother j _ rfl).mpr h.slot, ?_⟩⟩
    · intro l hl u hu hkey
      exact h.first l hl u ((hother l u hkey).mpr hu) hkey
    · intro l hl u hu hkey
      exact h.first l hl u ((hother l u hkey).mp hu) hkey

/-- The table has a free slot. -/
def HasRoom (t : Tracker) : Prop := (t.slots.findIdx fun s => s.key = none) < maxTrackedObjects

/-- **`get_object_version`**: the key's slot, after an assignment if there was none, or no slot at all. -/
theorem getObjectVersion_lookup (t : Tracker) (o : ObjectRef) :
    (∃ i v, version? t (generateKey o) = some v ∧ getObjectVersion t o = (some i, t) ∧
      At t i (generateKey o) v) ∨
    (∃ i t', version? t (generateKey o) = none ∧ getObjectVersion t o = (some i, t') ∧
      At t' i (generateKey o) (resourceVersionNext t) ∧ Assigns t (generateKey o) t') ∨
    ¬ HasRoom t ∧ getObjectVersion t o = (none, t) := by
  unfold getObjectVersion HasRoom
  cases hf : t.slots.findIdx? fun s => s.key = some (generateKey o) with
  | some i =>
    obtain ⟨hlt, hk, hfirst⟩ := List.findIdx?_eq_some_iff_getElem.mp hf
    have hk' : t.slots[i].key = some (generateKey o) := by simpa using hk
    have hat : At t i (generateKey o) t.slots[i].version := by
      refine ⟨by rw [List.getElem?_eq_getElem hlt, ← hk'], ?_⟩
      intro j hj u hu
      obtain ⟨hjlt, rfl⟩ := List.getElem?_eq_some_iff.mp hu
      simpa using hfirst j hj
    exact .inl ⟨i, _, version?_eq_some_iff.mpr ⟨i, hat⟩, rfl, hat⟩
  | none =>
    have hno : ∀ (j : Nat) (u : Slot), t.slots[j]? = some u → u.key ≠ some (generateKey o) := by
      intro j u hu
      simpa using List.findIdx?_eq_none_iff.mp hf u (List.mem_of_getElem? hu)
    have hfree : ∀ u, t.slots[t.slots.findIdx fun s => s.key = none]? = some u →
        u.key = none ∨ u.key = some (generateKey o) := by
      intro u hu
      obtain ⟨hlt, rfl⟩ := List.getElem?_eq_some_iff.mp hu
      exact .inl (by simpa using List.findIdx_getElem (w := hlt))
    dsimp only
    split
    · exact .inr (.inl ⟨_, _, version?_eq_none_iff.mpr hno, rfl,
        assigns_stamp List.findIdx_le_length (fun j _ u hu => hno j u hu) hfree⟩)
    · next hfull => exact .inr (.inr ⟨hfull, rfl⟩)

/-- With a free slot there is one for the key. -/
theorem getObjectVersion_spec (hroom : HasRoom t) (o : ObjectRef) :
    (∃ i v, version? t (generateKey o) = some v ∧ getObjectVersion t o = (some i, t) ∧
      At t i (generateKey o) v) ∨
    ∃ i t', version? t (generateKey o) = none ∧ getObjectVersion t o = (some i, t') ∧
      At t' i (generateKey o) (resourceVersionNext t) ∧ Assigns t (generateKey o) t' := by
  rcases getObjectVersion_lookup t o with h | h | ⟨hfull, -⟩
  · exact .inl h
  · exact .inr h
  · exact absurd hroom hfull

theorem assigns_bump (h : At t i k v) : Assigns t k (bumpSlot t i) := by
  have hkey : (t.slots[i]?).bind Slot.key = some k := by rw [h.slot]; rfl
  have hlt : i < t.slots.length := (List.getElem?_eq_some_iff.mp h.slot).1
  unfold bumpSlot
  rw [hkey]
  refine (assigns_stamp hlt.le h.first fun u hu => ?_).2
  rw [h.slot] at hu
  cases hu
  exact .inr rfl

/-- **A mark leaves the other keys alone.** -/
theorem version?_markUpdated_ne (t : Tracker) {o : ObjectRef} {k : CString} (h : generateKey o ≠ k) :
    version? (casMarkUpdated t o).2 k = version? t k := by
  unfold casMarkUpdated casUpdateVersion
  rcases getObjectVersion_lookup t o with ⟨i, v, -, heq, hat⟩ | ⟨i, t', -, heq, hat, ha⟩ | ⟨-, heq⟩
  · rw [heq]
    dsimp only
    rw [(assigns_bump hat).version, if_neg h.symm]
  · rw [heq]
    dsimp only
    rw [(assigns_bump hat).version, if_neg h.symm, ha.version, if_neg h.symm]
  · rw [heq]

theorem version?_resetObjects (k : CString) : version? (resetObjects t) k = none := by
  rw [version?_eq_none_iff]
  intro i u hu
  simp only [resetObjects, List.getElem?_map, Option.map_eq_some_iff] at hu
  obtain ⟨s, -, rfl⟩ := hu
  exact nofun

theorem hasRoom_resetObjects : HasRoom (resetObjects t) := by
  unfold HasRoom resetObjects
  cases t.slots with
  | nil => simp [maxTrackedObjects]
  | cons s slots => simp [List.findIdx_cons, maxTrackedObjects]

/-! ## Runs -/

/-- A call. -/
inductive Op where
  | getVersion (o : ObjectRef)
  | checkVersion (o : ObjectRef) (expected : Nat)
  | markUpdated (o : ObjectRef)
  deriving DecidableEq, Repr

/-- The version a lookup assigns: none to a key that has one. -/
def drawn (t : Tracker) (o : ObjectRef) : List (CString × Nat) :=
  match version? t (generateKey o) with
  | some _ => []
  | none => [(generateKey o, resourceVersionNext t)]

/-- The versions a call assigns, the last one first. -/
def assigned (t : Tracker) : Op → List (CString × Nat)
  | .getVersion o => drawn t o
  | .checkVersion o _ => drawn (casHandlerInit t) o
  | .markUpdated o => (generateKey o, resourceVersionNext (getObjectVersion t o).2) :: drawn t o

/-- The tracker with every version assigned so far, the last one first. -/
structure Logged where
  tracker : Tracker
  log : List (CString × Nat)
  deriving DecidableEq, Repr

/-- Process start. -/
def Logged.start : Logged := ⟨Tracker.start, []⟩

def step (s : Logged) (op : Op) : Logged where
  tracker :=
    match op with
    | .getVersion o => (casGetVersion s.tracker o).2
    | .checkVersion o expected => (casCheckVersion s.tracker o expected).2
    | .markUpdated o => (casMarkUpdated s.tracker o).2
  log := assigned s.tracker op ++ s.log

/-- **Fresh versions that grow**: no version was assigned twice, those of an object increase, and the
tracker holds the last of them. -/
structure Consistent (s : Logged) : Prop where
  fresh : (s.log.map Prod.snd).Nodup
  grows : ∀ o, ((s.log.filter fun p => p.1 = generateKey o).map Prod.snd).Pairwise fun later earlier =>
    earlier < later
  latest : ∀ o v, version? s.tracker (generateKey o) = some v →
    ((s.log.filter fun p => p.1 = generateKey o).map Prod.snd).head? = some v

/-- **A check accepts what a get would return.** -/
def Agrees (s : Logged) (op : Op) : Prop :=
  ∀ o expected, op = .checkVersion o expected →
    ((casCheckVersion s.tracker o expected).1 = .ok ↔ expected = (casGetVersion s.tracker o).1)

/-- The table has a free slot, the counter does not wrap, and the first check of the process is for an
object that is not tracked yet. -/
structure Allowed (s : Logged) (op : Op) : Prop where
  room : HasRoom s.tracker
  unwrapped : s.tracker.currentVersion + 2 < 2 ^ 64
  firstCheck : ∀ o expected, op = .checkVersion o expected → s.tracker.initialized = false →
    version? s.tracker (generateKey o) = none

/-- The invariant. -/
structure Kept (s : Logged) : Prop where
  below : ∀ p ∈ s.log, p.2 ≤ s.tracker.currentVersion
  decreasing : s.log.Pairwise fun later earlier => earlier.2 < later.2
  latest : ∀ k v, version? s.tracker k = some v → s.log.find? (fun p => p.1 = k) = some (k, v)

theorem Kept.consistent {s : Logged} (h : Kept s) : Consistent s where
  fresh := by
    unfold List.Nodup
    rw [List.pairwise_map]
    exact h.decreasing.imp fun hlt => (Nat.ne_of_lt hlt).symm
  grows o := by
    rw [List.pairwise_map]
    exact h.decreasing.filter _
  latest o v hv := by
    rw [List.head?_map, List.head?_filter, h.latest _ v hv]
    rfl

/-- An assignment is above everything in the log. -/
theorem kept_assigns {log : List (CString × Nat)} (h : Kept ⟨t, log⟩) (hwrap : t.currentVersion + 1 < 2 ^ 64)
    (ha : Assigns t k t') : Kept ⟨t', (k, resourceVersionNext t) :: log⟩ := by
  have hnext : resourceVersionNext t = t.currentVersion + 1 := Nat.mod_eq_of_lt hwrap
  have hbelow : ∀ p ∈ log, p.2 < resourceVersionNext t := by
    intro p hp
    have hle : p.2 ≤ t.currentVersion := h.below p hp
    omega
  refine ⟨?_, List.pairwise_cons.mpr ⟨hbelow, h.decreasing⟩, ?_⟩
  · intro p hp
    rw [ha.counter]
    rcases List.mem_cons.mp hp with rfl | hp
    · exact le_rfl
    · exact (hbelow p hp).le
  · intro k' v hv
    rw [ha.version] at hv
    split at hv
    · next heq =>
      cases hv
      subst heq
      exact List.find?_cons_of_pos (by simp)
    · next hne =>
      rw [List.find?_cons_of_neg (by simpa using Ne.symm hne)]
      exact h.latest k' v hv

/-- The cleared table holds nothing. -/
theorem kept_init {log : List (CString × Nat)} (h : Kept ⟨t, log⟩) : Kept ⟨casHandlerInit t, log⟩ := by
  unfold casHandlerInit
  split
  · exact h
  · refine ⟨h.below, h.decreasing, fun k v hv => ?_⟩
    rw [version?_resetObjects] at hv
    cases hv

/-- A lookup keeps the invariant. -/
theorem kept_getObjectVersion {log : List (CString × Nat)} (h : Kept ⟨t, log⟩)
    (hwrap : t.currentVersion + 1 < 2 ^ 64) (hroom : HasRoom t) (o : ObjectRef) :
    Kept ⟨(getObjectVersion t o).2, drawn t o ++ log⟩ := by
  unfold drawn
  rcases getObjectVersion_spec hroom o with ⟨i, v, hv, heq, -⟩ | ⟨i, t', hv, heq, -, ha⟩
  · rw [heq, hv]
    exact h
  · rw [heq, hv]
    exact kept_assigns h hwrap ha

theorem casGetVersion_tracker (o : ObjectRef) : (casGetVersion t o).2 = (getObjectVersion t o).2 := by
  unfold casGetVersion
  split <;> next heq => rw [heq]

theorem casCheckVersion_tracker (o : ObjectRef) (expected : Nat) :
    (casCheckVersion t o expected).2 = (getObjectVersion (casHandlerInit t) o).2 := by
  unfold casCheckVersion
  split <;> next heq => rw [heq]

theorem hasRoom_init (h : HasRoom t) : HasRoom (casHandlerInit t) := by
  unfold casHandlerInit
  split
  · exact h
  · exact hasRoom_resetObjects

theorem currentVersion_init : (casHandlerInit t).currentVersion = t.currentVersion := by
  unfold casHandlerInit
  split <;> rfl

/-- A mark keeps the invariant: at most two versions are assigned. -/
theorem kept_markUpdated {log : List (CString × Nat)} (h : Kept ⟨t, log⟩)
    (hwrap : t.currentVersion + 2 < 2 ^ 64) (hroom : HasRoom t) (o : ObjectRef) :
    Kept ⟨(casMarkUpdated t o).2, assigned t (.markUpdated o) ++ log⟩ := by
  have hlookup := kept_getObjectVersion h (by omega) hroom o
  show Kept ⟨_, (generateKey o, resourceVersionNext (getObjectVersion t o).2) :: (drawn t o ++ log)⟩
  unfold casMarkUpdated casUpdateVersion
  rcases getObjectVersion_spec hroom o with ⟨i, v, -, heq, hat⟩ | ⟨i, t', -, heq, hat, ha⟩
  · rw [heq] at hlookup ⊢
    exact kept_assigns hlookup (show t.currentVersion + 1 < 2 ^ 64 by omega) (assigns_bump hat)
  · rw [heq] at hlookup ⊢
    have hnext : t'.currentVersion = t.currentVersion + 1 := ha.counter.trans (Nat.mod_eq_of_lt (by omega))
    exact kept_assigns hlookup (show t'.currentVersion + 1 < 2 ^ 64 by omega) (assigns_bump hat)

/-- **The step.** -/
theorem step_kept (s : Logged) (op : Op) (h : Kept s) (ha : Allowed s op) : Kept (step s op) := by
  have hwrap := ha.unwrapped
  cases op with
  | getVersion o =>
    have hkept := kept_getObjectVersion h (by omega) ha.room o
    rw [← casGetVersion_tracker] at hkept
    exact hkept
  | checkVersion o expected =>
    have hkept := kept_getObjectVersion (kept_init h) (by rw [currentVersion_init]; omega)
      (hasRoom_init ha.room) o
    rw [← casCheckVersion_tracker o expected] at hkept
    exact hkept
  | markUpdated o => exact kept_markUpdated h hwrap ha.room o

/-! ## What a call answers -/

/-- A get returns the version of the key, or the next one for a key that had none. -/
theorem casGetVersion_answer (hroom : HasRoom t) (o : ObjectRef) :
    (casGetVersion t o).1 = (version? t (generateKey o)).getD (resourceVersionNext t) := by
  unfold casGetVersion
  rcases getObjectVersion_spec hroom o with ⟨i, v, hv, heq, hat⟩ | ⟨i, t', hv, heq, hat, -⟩
  · rw [heq, hv]
    exact hat.slotVersion
  · rw [heq, hv]
    exact hat.slotVersion

/-- A check does so after it has initialised the table. -/
theorem casCheckVersion_answer (hroom : HasRoom t) (o : ObjectRef) (expected : Nat) :
    (casCheckVersion t o expected).1 = .ok ↔ expected =
      (version? (casHandlerInit t) (generateKey o)).getD (resourceVersionNext t) := by
  have hnext : resourceVersionNext (casHandlerInit t) = resourceVersionNext t := by
    unfold resourceVersionNext
    rw [currentVersion_init]
  have hslot : ∀ i t', getObjectVersion (casHandlerInit t) o = (some i, t') →
      slotVersion t' i = (version? (casHandlerInit t) (generateKey o)).getD (resourceVersionNext t) →
      ((casCheckVersion t o expected).1 = .ok ↔ expected =
        (version? (casHandlerInit t) (generateKey o)).getD (resourceVersionNext t)) := by
    intro i t' heq hversion
    unfold casCheckVersion
    rw [heq]
    dsimp only
    rw [hversion]
    split <;> simp_all
  rcases getObjectVersion_spec (hasRoom_init hroom) o with ⟨i, v, hv, heq, hat⟩ | ⟨i, t', hv, heq, hat, -⟩
  · exact hslot i _ heq (by rw [hv]; exact hat.slotVersion)
  · exact hslot i t' heq (by rw [hv, hat.slotVersion, hnext]; rfl)

/-- A check that finds the table initialised, or an object that is not tracked, agrees with a get. -/
theorem Allowed.agrees {s : Logged} {op : Op} (h : Allowed s op) : Agrees s op := by
  rintro o expected rfl
  rw [casCheckVersion_answer h.room, casGetVersion_answer h.room]
  cases hinit : s.tracker.initialized with
  | true =>
    unfold casHandlerInit
    rw [if_pos hinit]
  | false =>
    have hnone := h.firstCheck o expected rfl hinit
    unfold casHandlerInit
    rw [if_neg (by simp [hinit]), version?_resetObjects, hnone]

theorem kept_start : Kept Logged.start := ⟨nofun, .nil, fun _ _ hv => nomatch hv⟩

/-- **Versions are fresh and self-consistent** along every run from process start in which the table has a
free slot, the counter does not wrap and the first check is for an object that is not tracked yet. -/
theorem versions_consistent (ops : List Op) (h : AllSteps step Allowed Logged.start ops) :
    AllStates step Consistent Logged.start ops ∧ AllSteps step Agrees Logged.start ops :=
  ⟨(allStates_of_allSteps step_kept kept_start h).imp fun _ hs => hs.consistent,
    h.imp fun _ _ ha => ha.agrees⟩

/-- The pod `web`. -/
def web : ObjectRef := ⟨"pods", "default", "web"⟩

/-- A check, a mark and a get of one pod. -/
theorem web_consistent : AllStates step Consistent Logged.start
      [.checkVersion web 1001, .markUpdated web, .getVersion web] ∧
    AllSteps step Agrees Logged.start [.checkVersion web 1001, .markUpdated web, .getVersion web] := by
  refine versions_consistent _ ⟨⟨by unfold HasRoom; decide, by decide, ?_⟩,
    ⟨by unfold HasRoom; decide, by decide, ?_⟩, ⟨by unfold HasRoom; decide, by decide, ?_⟩, trivial⟩
  · rintro o expected hop -
    cases hop
    rfl
  · exact fun _ _ hop => nomatch hop
  · exact fun _ _ hop => nomatch hop

/-- **A check that forgets**: the version just got for `web` is a conflict at the first check. -/
theorem first_check_conflicts :
    ¬ ∀ ops : List Op, AllSteps step (fun s _ => HasRoom s.tracker) Logged.start ops →
      AllSteps step Agrees Logged.start ops := by
  intro h
  have hroom : AllSteps step (fun s _ => HasRoom s.tracker) Logged.start
      [.getVersion web, .checkVersion web 1001] := by
    refine ⟨?_, ?_, trivial⟩
    all_goals
      unfold HasRoom
      decide
  have hagrees := (h _ hroom).2.1 web 1001 rfl
  exact absurd hagrees (by decide)

end Sirah.CasHandler.Versions
