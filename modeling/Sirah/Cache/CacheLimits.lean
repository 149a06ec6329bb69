import Mathlib.Algebra.Ring.Int.Defs
import Mathlib.Data.Int.Order.Basic
import Mathlib.Order.OrderDual
import Sirah.Cache.RequestCache
import Sirah.Lib.FirstMax

/-!
# The limits of the request cache

`k8s_request_cache_put` (`sirah/internal/cache/request_cache.c`) makes room by removing one entry, the
first with the fewest hits, whatever it frees and even if there is none.

* `Cache.Within`: the sizes add up, and both limits hold.
* `intStep`: a step that has no result either where the sum of sizes overflows its `int`, which C leaves
  undefined.
* `Fits`: a `put` into a full cache finds an entry to remove, and removing it makes room.
* **`limits_kept_iff`**: in a run of a new cache all limits hold, and no `put` evicts from an empty cache,
  exactly when every step of it fits.
* `empty_evicted`: one entry of 42 bytes, for a cache of 41.
-/

namespace Sirah.RequestCache

open Runs

/-- The sum of the sizes of the entries. -/
def totalSize (es : List Entry) : Int := (es.map fun e => (e.size : Int)).sum

/-- **The cache accounts for its entries and respects its limits.** -/
structure Cache.Within (c : Cache) : Prop where
  accounted : c.currentSizeBytes = totalSize c.entries
  count : c.entries.length ≤ c.maxEntries
  size : c.currentSizeBytes ≤ c.maxSizeBytes

/-- The sum of sizes that `put` tests exceeds an `int`; at `max_entries` it is not computed. -/
def overflows (c : Cache) : Op → Bool
  | .put _ k v => c.enabled && decide (c.entries.length < c.maxEntries) &&
      decide (c.currentSizeBytes + entrySize k v > 2147483647)
  | _ => false

/-- One operation; there is no state after an undefined one. -/
def intStep (s : Option Cache) (op : Op) : Option Cache :=
  s.bind fun c => if overflows c op then none else apply c op

/-- There is a state, and it is within the limits. -/
def WithinLimits (s : Option Cache) : Prop := ∃ c, s = some c ∧ c.Within

/-- A `put` that evicts has an entry to evict. -/
def EvictsEntry (s : Option Cache) : Op → Prop
  | .put _ k v => ∀ c, s = some c → c.enabled = true → full c (entrySize k v) = true → c.entries ≠ []
  | _ => True

/-- Along the run the limits hold and no `put` evicts from an empty cache. -/
def LimitsKept (c : Cache) (ops : List Op) : Prop :=
  AllStates intStep WithinLimits (some c) ops ∧ AllSteps intStep EvictsEntry (some c) ops

/-- The entry is the first with the fewest hits. An `int` counts no further than `INT_MAX`. -/
def FewestHits (pre : List Entry) (e : Entry) (post : List Entry) : Prop :=
  FirstMaxAt (fun _ => true) (fun e : Entry => OrderDual.toDual (min e.hits 2147483647)) pre e post

/-- Removing the first entry with the fewest hits makes room for `size` bytes. -/
def MakesRoom (c : Cache) (size : Nat) : Prop :=
  ∃ pre e post, c.entries = pre ++ e :: post ∧ FewestHits pre e post ∧
    c.currentSizeBytes - e.size + size ≤ c.maxSizeBytes

/-- The sum of sizes does not overflow, and a `put` into a full cache makes room. -/
def Fits (s : Option Cache) : Op → Prop
  | .put now k v => ∀ c, s = some c → overflows c (.put now k v) = false ∧
      (c.enabled = true → full c (entrySize k v) = true → MakesRoom c (entrySize k v))
  | _ => True

/-! ## Sizes -/

section Sizes

variable {es pre post : List Entry} {e : Entry}

theorem totalSize_remove : totalSize (pre ++ e :: post) = totalSize (pre ++ post) + e.size := by
  unfold totalSize
  rw [List.map_append, List.map_append, List.map_cons, List.sum_append, List.sum_append, List.sum_cons]
  omega

theorem totalSize_concat : totalSize (es ++ [e]) = totalSize es + e.size := by
  rw [totalSize_remove, List.append_nil]

/-- The total is that of the sizes alone. -/
theorem totalSize_congr {es' : List Entry} (h : es.map Entry.size = es'.map Entry.size) :
    totalSize es = totalSize es' := by
  have hcast (l : List Entry) : totalSize l = ((l.map Entry.size).map (Nat.cast : Nat → Int)).sum := by
    rw [List.map_map]
    rfl
  rw [hcast, hcast, h]

/-- A hit changes no size. -/
theorem hitFirst_sizes (key : CString) (es : List Entry) :
    (hitFirst key es).map Entry.size = es.map Entry.size := by
  induction es with
  | nil => rfl
  | cons e es ih =>
    unfold hitFirst
    split
    · rfl
    · rw [List.map_cons, ih, List.map_cons]

end Sizes

/-! ## The entry that is evicted -/

theorem fewestHits_head {e : Entry} {es : List Entry} (h : ∀ x ∈ es, min e.hits 2147483647 ≤ x.hits) :
    FewestHits [] e es :=
  .head rfl fun x hx _ => OrderDual.toDual_le_toDual.mpr (le_min (h x hx) (min_le_right _ _))

theorem FewestHits.cons {pre post : List Entry} {e x : Entry} (h : FewestHits pre e post)
    (hx : e.hits < min x.hits 2147483647) : FewestHits (x :: pre) e post :=
  FirstMaxAt.cons h fun _ => OrderDual.toDual_lt_toDual.mpr ((min_le_left _ _).trans_lt hx)

/-- **The loop** stays at the best so far, or ends at the first entry with the fewest hits. -/
theorem minHitsLoop_spec (es : List Entry) (i minHits minIdx : Nat) (hmax : minHits ≤ 2147483647) :
    (minHitsLoop es i minHits minIdx = minIdx ∧ ∀ e ∈ es, minHits ≤ e.hits) ∨
    ∃ pre e post, es = pre ++ e :: post ∧ FewestHits pre e post ∧ e.hits < minHits ∧
      minHitsLoop es i minHits minIdx = i + pre.length := by
  induction es generalizing i minHits minIdx with
  | nil => exact .inl ⟨rfl, List.forall_mem_nil _⟩
  | cons x es ih =>
    unfold minHitsLoop
    split
    · next hless =>
      rcases ih (i + 1) x.hits i (hless.le.trans hmax) with ⟨hidx, hle⟩ | ⟨pre, e, post, rfl, he, hlt, hidx⟩
      · refine .inr ⟨[], x, es, rfl, fewestHits_head ?_, hless, hidx⟩
        exact fun y hy => (min_le_left _ _).trans (hle y hy)
      · refine .inr ⟨x :: pre, e, post, rfl, he.cons (lt_min hlt ?_), hlt.trans hless, ?_⟩
        · exact (hlt.trans hless).trans_le hmax
        · rw [hidx, List.length_cons]
          omega
    · next hless =>
      rw [not_lt] at hless
      rcases ih (i + 1) minHits minIdx hmax with ⟨hidx, hle⟩ | ⟨pre, e, post, rfl, he, hlt, hidx⟩
      · exact .inl ⟨hidx, List.forall_mem_cons.mpr ⟨hless, hle⟩⟩
      · refine .inr ⟨x :: pre, e, post, rfl, he.cons (lt_min ?_ ?_), hlt, ?_⟩
        · exact hlt.trans_le hless
        · exact hlt.trans_le hmax
        · rw [hidx, List.length_cons]
          omega

/-- **An eviction** removes the first entry with the fewest hits; there is one unless the cache is empty. -/
theorem evict_spec (c : Cache) :
    (evict c = none ∧ c.entries = []) ∨
    ∃ pre e post, c.entries = pre ++ e :: post ∧ FewestHits pre e post ∧
      evict c = some { c with entries := pre ++ post, currentSizeBytes := c.currentSizeBytes - e.size } := by
  have hevict {pre post : List Entry} {e : Entry} (hentries : c.entries = pre ++ e :: post)
      (hidx : minHitsIdx c.entries = pre.length) : evict c =
        some { c with entries := pre ++ post, currentSizeBytes := c.currentSizeBytes - e.size } := by
    unfold evict
    rw [hidx, hentries, List.getElem?_append_right le_rfl, Nat.sub_self,
      List.eraseIdx_append_of_length_le le_rfl, Nat.sub_self]
    rfl
  rcases minHitsLoop_spec c.entries 0 2147483647 0 le_rfl with ⟨hidx, hle⟩ | ⟨pre, e, post, hentries, he, -, hidx⟩
  · cases hentries : c.entries with
    | nil =>
      refine .inl ⟨?_, rfl⟩
      unfold evict
      rw [hentries]
      rfl
    | cons e es =>
      rw [hentries] at hle
      refine .inr ⟨[], e, es, rfl, fewestHits_head fun x hx => ?_, hevict hentries hidx⟩
      exact (min_le_right _ _).trans (hle x (List.mem_cons_of_mem e hx))
  · refine .inr ⟨pre, e, post, hentries, he, hevict hentries (hidx.trans (Nat.zero_add _))⟩

/-! ## The limits at each kind of step -/

section Steps

variable {c : Cache} {pre post : List Entry} {e : Entry}

/-- The removal of an entry keeps the accounts and both limits. -/
theorem Cache.Within.remove (h : c.Within) (hentries : c.entries = pre ++ e :: post) :
    Cache.Within { c with entries := pre ++ post, currentSizeBytes := c.currentSizeBytes - e.size } where
  accounted := by
    show c.currentSizeBytes - e.size = totalSize (pre ++ post)
    have haccounted := h.accounted
    rw [hentries, totalSize_remove] at haccounted
    omega
  count := by
    show (pre ++ post).length ≤ c.maxEntries
    have hcount := h.count
    rw [hentries, List.length_append, List.length_cons] at hcount
    rw [List.length_append]
    omega
  size := by
    show c.currentSizeBytes - e.size ≤ c.maxSizeBytes
    have hsize := h.size
    omega

/-- An entry is appended below `max_entries`: the limits are kept exactly if there is room for it. -/
theorem append_within_iff (h : c.Within) (hcount : c.entries.length < c.maxEntries) (e : Entry) :
    (append c e).Within ↔ c.currentSizeBytes + e.size ≤ c.maxSizeBytes := by
  refine ⟨fun hwithin => hwithin.size, fun hroom => ⟨?_, ?_, hroom⟩⟩
  · show c.currentSizeBytes + e.size = totalSize (c.entries ++ [e])
    rw [totalSize_concat, h.accounted]
  · show (c.entries ++ [e]).length ≤ c.maxEntries
    rw [List.length_append]
    exact hcount

/-- `findKey` and `eraseP` stop at the same entry. -/
theorem findKey_split {es : List Entry} {key : CString} (h : findKey es key = some e) :
    ∃ pre post, es = pre ++ e :: post ∧ (es.eraseP fun e => e.key = key) = pre ++ post := by
  obtain ⟨he, pre, post, rfl, hpre⟩ := List.find?_eq_some_iff_append.mp h
  refine ⟨pre, post, rfl, ?_⟩
  have hpre' : ∀ x ∈ pre, ¬(decide (x.key = key) = true) := by
    intro x hx hkey
    have := hpre x hx
    rw [hkey] at this
    exact Bool.noConfusion this
  rw [List.eraseP_append_right _ hpre']
  exact congrArg (pre ++ ·) (List.eraseP_cons_of_pos he)

theorem dropFirst_within {key : CString} (h : c.Within) (hfind : findKey c.entries key = some e) :
    (dropFirst c key e).Within := by
  obtain ⟨pre, post, hentries, herase⟩ := findKey_split hfind
  unfold dropFirst
  rw [herase]
  exact h.remove hentries

theorem get_within (h : c.Within) (now : Int) (key : CString) : (get c now key).2.Within := by
  unfold get
  split
  · exact h
  · cases hfind : findKey c.entries key with
    | none => exact h
    | some e =>
      show Cache.Within (if expired c now e = true then _ else _ : Option CString × Cache).2
      split
      · exact dropFirst_within h hfind
      · have hsizes := hitFirst_sizes key c.entries
        refine ⟨?_, ?_, h.size⟩
        · exact h.accounted.trans (totalSize_congr hsizes.symm)
        · have hlength := congrArg List.length hsizes
          rw [List.length_map, List.length_map] at hlength
          exact hlength.trans_le h.count

theorem remove_within (h : c.Within) (key : CString) : (remove c key).2.Within := by
  unfold remove
  cases hfind : findKey c.entries key with
  | none => exact h
  | some e => exact dropFirst_within h hfind

theorem clear_within : (clear c).Within := ⟨rfl, Nat.zero_le _, Int.natCast_nonneg _⟩

theorem MakesRoom.entries_ne_nil {size : Nat} (h : MakesRoom c size) : c.entries ≠ [] := by
  obtain ⟨pre, e, post, hentries, -, -⟩ := h
  rw [hentries]
  exact List.append_ne_nil_of_right_ne_nil pre (List.cons_ne_nil e post)

theorem not_withinLimits_none : ¬ WithinLimits none := by
  rintro ⟨c, hc, -⟩
  cases hc

/-- What a `put` into a full cache needs. -/
theorem put_within_iff (h : c.Within) (henabled : c.enabled = true) (now : Int) (key value : CString) :
    WithinLimits (put c now key value) ↔
      (full c (entrySize key value) = true → MakesRoom c (entrySize key value)) := by
  unfold put
  rw [if_neg (by rw [henabled]; exact Bool.noConfusion)]
  show WithinLimits (if full c (entrySize key value) = true then _ else _) ↔ _
  cases hfull : full c (entrySize key value) with
  | false =>
    refine iff_of_true ⟨_, rfl, ?_⟩ fun hfalse => absurd hfalse Bool.false_ne_true
    obtain ⟨hcount, hroom⟩ := Bool.or_eq_false_iff.mp hfull
    exact (append_within_iff h (Nat.not_le.mp (of_decide_eq_false hcount)) _).mpr
      (Int.not_lt.mp (of_decide_eq_false hroom))
  | true =>
    rw [if_pos rfl]
    simp only [forall_const]
    rcases evict_spec c with ⟨hnone, hnil⟩ | ⟨pre, e, post, hentries, he, hevict⟩
    · rw [hnone]
      exact iff_of_false not_withinLimits_none fun hroom => hroom.entries_ne_nil hnil
    · rw [hevict]
      have hcount : (pre ++ post).length < c.maxEntries := by
        have := h.count
        rw [hentries, List.length_append, List.length_cons] at this
        rw [List.length_append]
        omega
      have happend := append_within_iff (h.remove hentries) hcount (newEntry c now key value)
      constructor
      · rintro ⟨c', hc', hwithin⟩
        cases hc'
        exact ⟨pre, e, post, hentries, he, happend.mp hwithin⟩
      · rintro ⟨pre', e', post', hentries', he', hroom⟩
        obtain ⟨rfl, rfl, rfl⟩ := FirstMaxAt.unique he he' (hentries.symm.trans hentries')
        exact ⟨_, rfl, happend.mpr hroom⟩

end Steps

/-! ## Steps and runs -/

/-- **One step** keeps the limits exactly when it fits. -/
theorem within_step_iff {s : Option Cache} (h : WithinLimits s) (op : Op) :
    WithinLimits (intStep s op) ↔ Fits s op := by
  obtain ⟨c, rfl, hc⟩ := h
  cases op with
  | put now k v =>
    have hfits : Fits (some c) (.put now k v) ↔ overflows c (.put now k v) = false ∧
        (c.enabled = true → full c (entrySize k v) = true → MakesRoom c (entrySize k v)) :=
      ⟨fun hfits => hfits c rfl, fun hfits c' hc' => by cases hc'; exact hfits⟩
    rw [hfits]
    show WithinLimits (if overflows c (.put now k v) = true then none else put c now k v) ↔ _
    cases overflows c (.put now k v) with
    | true =>
      exact iff_of_false not_withinLimits_none fun hfalse => absurd hfalse.1.symm Bool.false_ne_true
    | false =>
      rw [if_neg Bool.false_ne_true]
      cases henabled : c.enabled with
      | true =>
        rw [put_within_iff hc henabled]
        exact ⟨fun hroom => ⟨rfl, fun _ => hroom⟩, fun hroom => hroom.2 rfl⟩
      | false =>
        refine iff_of_true ⟨c, ?_, hc⟩ ⟨rfl, fun hfalse => absurd hfalse Bool.false_ne_true⟩
        unfold put
        rw [if_pos henabled]
  | get now k => exact iff_of_true ⟨_, rfl, get_within hc now k⟩ trivial
  | contains now k => exact iff_of_true ⟨_, rfl, get_within hc now k⟩ trivial
  | remove k => exact iff_of_true ⟨_, rfl, remove_within hc k⟩ trivial
  | clear => exact iff_of_true ⟨_, rfl, clear_within⟩ trivial

/-- A step that fits evicts from no empty cache. -/
theorem Fits.evictsEntry {s : Option Cache} {op : Op} (h : Fits s op) : EvictsEntry s op := by
  cases op with
  | put now k v =>
    intro c hc henabled hfull
    exact ((h c hc).2 henabled hfull).entries_ne_nil
  | get => trivial
  | contains => trivial
  | remove => trivial
  | clear => trivial

theorem new_within {maxEntries maxSizeBytes ttlSeconds : Int} {c : Cache}
    (hc : new maxEntries maxSizeBytes ttlSeconds = some c) : c.Within := by
  unfold new at hc
  split at hc
  · cases hc
  · cases hc
    exact ⟨rfl, Nat.zero_le _, Int.natCast_nonneg _⟩

/-- **The limits of a new cache are kept along a run exactly when every step of it fits.** -/
theorem limits_kept_iff {maxEntries maxSizeBytes ttlSeconds : Int} {c : Cache}
    (hc : new maxEntries maxSizeBytes ttlSeconds = some c) (ops : List Op) :
    LimitsKept c ops ↔ AllSteps intStep Fits (some c) ops := by
  have hwithin : AllStates intStep WithinLimits (some c) ops ↔ AllSteps intStep Fits (some c) ops :=
    allStates_iff_allSteps (I := fun _ => True) (A := fun _ _ => True) (fun _ _ _ _ => trivial)
      (fun _ op _ _ h => within_step_iff h op) trivial ⟨c, rfl, new_within hc⟩ allSteps_true
  refine ⟨fun hkept => hwithin.mp hkept.1, fun hfits => ⟨hwithin.mpr hfits, ?_⟩⟩
  exact hfits.imp fun _ _ => Fits.evictsEntry

/-- A cache of one entry: the second entry replaces the first. -/
theorem limits_kept_replacing :
    LimitsKept ⟨[], 1, 100, 0, 60, true⟩ [.put 0 "a" "10", .put 1 "b" "20"] := by
  have hnew : new 1 100 60 = some ⟨[], 1, 100, 0, 60, true⟩ := rfl
  refine (limits_kept_iff hnew _).mpr ?_
  refine ⟨?_, ?_, trivial⟩
  · intro c hc
    cases hc
    exact ⟨rfl, fun _ hfull => absurd hfull (by decide)⟩
  · intro c hc
    cases hc
    exact ⟨rfl, fun _ _ => ⟨[], _, [], rfl, fewestHits_head (List.forall_mem_nil _), by decide⟩⟩

/-- **A single entry of 42 bytes, put into a new cache of 41 bytes, evicts from the empty cache.** -/
theorem empty_evicted :
    ¬ ∀ (maxEntries maxSizeBytes ttlSeconds : Int) (c : Cache) (ops : List Op),
      new maxEntries maxSizeBytes ttlSeconds = some c → LimitsKept c ops := by
  intro h
  have hkept := h 4 41 60 ⟨[], 4, 41, 0, 60, true⟩ [.put 0 "k" "v"] rfl
  exact hkept.2.1 _ rfl rfl (by decide) rfl

end Sirah.RequestCache
