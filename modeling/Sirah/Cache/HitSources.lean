import Mathlib.Data.List.Forall2
import Sirah.Cache.RequestCache

/-!
# Where the answers of the request cache come from

A key may have several entries in `sirah/internal/cache/request_cache.c`, evictions take any of them away, and entries
expire where they are read. What a reader can rely on nevertheless is said of the `put` behind each answer.

* `Traced`: a state of a run with, for each entry, the place in the run of the `put` that made it. `placesAfter` does to
  the places what an operation does to the entries.
* `Held R`: every entry stands in the relation `R` to its place. `Held.step` is the rule for one operation.
* **`hits_sourced`**: every answer is a value that was put under the key no longer ago than the time to live, with no
  `clear` since. The answers for a key never go back to an earlier `put`, and never to one again after a `remove`.
-/

namespace Sirah.RequestCache

open Runs

/-! ## Places -/

/-- The index of the first entry of the key. -/
def firstIdx (es : List Entry) (key : CString) : Nat := es.findIdx fun e => e.key = key

/-- A state of a run, with the place in the run of the `put` that made each entry. -/
structure Traced where
  cache : Option Cache
  places : List Nat
  count : Nat

/-- What a read makes of the places. -/
def placesAfterGet (c : Cache) (places : List Nat) (now : Int) (key : CString) : List Nat :=
  if c.enabled = false then places
  else
    match findKey c.entries key with
    | none => places
    | some e => if expired c now e then places.eraseIdx (firstIdx c.entries key) else places

/-- What the operation at place `n` makes of the places. -/
def placesAfter (c : Cache) (places : List Nat) (n : Nat) : Op → List Nat
  | .put _ key value =>
    if c.enabled = false then places
    else if full c (entrySize key value) then places.eraseIdx (minHitsIdx c.entries) ++ [n]
    else places ++ [n]
  | .get now key => placesAfterGet c places now key
  | .contains now key => placesAfterGet c places now key
  | .remove key => places.eraseIdx (firstIdx c.entries key)
  | .clear => []

/-- One operation. -/
def Traced.step (s : Traced) (op : Op) : Traced :=
  ⟨RequestCache.step s.cache op, s.cache.elim [] fun c => placesAfter c s.places s.count op, s.count + 1⟩

/-- The place of the first entry of the key. -/
def Traced.source (s : Traced) (key : CString) : Nat :=
  s.cache.elim 0 fun c => (s.places[firstIdx c.entries key]?).getD 0

/-- Every entry stands in the relation to its place. -/
def Held (R : Entry → Nat → Prop) (s : Traced) : Prop := ∀ c ∈ s.cache, List.Forall₂ R c.entries s.places

/-- The entries of the key were made at the place `p` or later. -/
def NotBefore (key : CString) (p : Nat) (e : Entry) (n : Nat) : Prop := e.key = key → p ≤ n

/-- A `get` at place `i` of a run that answers a value. -/
def HitAt (c : Cache) (ops : List Op) (i : Nat) (now : Int) (key value : CString) : Prop :=
  ops[i]? = some (.get now key) ∧
    ∃ c', run step (some c) (ops.take i) = some c' ∧ (get c' now key).1 = some value

/-- **The `put` behind each answer.** -/
structure Sourced (c : Cache) (ops : List Op) (source : Nat → Nat) : Prop where
  put : ∀ i now key value, HitAt c ops i now key value → source i < i ∧
    (∃ t, ops[source i]? = some (.put t key value) ∧ now - t ≤ c.ttlSeconds) ∧
    ∀ j, source i < j → j < i → ops[j]? ≠ some .clear
  monotone : ∀ i now value j now' value' key, HitAt c ops i now key value → HitAt c ops j now' key value' → i ≤ j →
    source i ≤ source j
  removed : ∀ i now value r j now' value' key, HitAt c ops i now key value → HitAt c ops j now' key value' →
    i < r → r < j → ops[r]? = some (.remove key) → source i < source j

/-! ## Two lists of one length -/

section Lists

variable {R : Entry → Nat → Prop} {es : List Entry} {ns : List Nat} {e : Entry} {n p : Nat} {key : CString}

theorem forall₂_eraseIdx (h : List.Forall₂ R es ns) (i : Nat) : List.Forall₂ R (es.eraseIdx i) (ns.eraseIdx i) := by
  induction h generalizing i with
  | nil => exact .nil
  | cons hhead htail ih =>
    cases i with
    | zero => exact htail
    | succ i => exact .cons hhead (ih i)

theorem forall₂_concat (h : List.Forall₂ R es ns) (hnew : R e n) : List.Forall₂ R (es ++ [e]) (ns ++ [n]) :=
  List.rel_append h (.cons hnew .nil)

theorem forall₂_hitFirst (hhit : ∀ e n, R e n → R { e with hits := e.hits + 1 } n) (h : List.Forall₂ R es ns) :
    List.Forall₂ R (hitFirst key es) ns := by
  induction h with
  | nil => exact .nil
  | cons hhead htail ih =>
    rw [hitFirst]
    split
    · exact .cons (hhit _ _ hhead) htail
    · exact .cons hhead ih

theorem firstIdx_cons (e : Entry) (es : List Entry) :
    firstIdx (e :: es) key = if e.key = key then 0 else firstIdx es key + 1 := by
  rw [firstIdx, List.findIdx_cons, firstIdx]
  by_cases hkey : e.key = key <;> simp [hkey]

/-- Removing the first entry of the key is removing at its index. -/
theorem eraseP_key (es : List Entry) (key : CString) :
    (es.eraseP fun e => e.key = key) = es.eraseIdx (firstIdx es key) := by
  induction es with
  | nil => rfl
  | cons e es ih =>
    rw [firstIdx_cons]
    by_cases hkey : e.key = key
    · rw [List.eraseP_cons_of_pos (by simpa using hkey), if_pos hkey, List.eraseIdx_cons_zero]
    · rw [List.eraseP_cons_of_neg (by simpa using hkey), if_neg hkey, List.eraseIdx_cons_succ, ih]

/-- The first entry of the key, and its place. -/
theorem forall₂_find (h : List.Forall₂ R es ns) (hfind : findKey es key = some e) :
    ∃ n, ns[firstIdx es key]? = some n ∧ R e n ∧ e.key = key := by
  induction h with
  | nil => cases hfind
  | @cons x m es ns hhead htail ih =>
    rw [firstIdx_cons]
    rw [findKey] at hfind
    by_cases hkey : x.key = key
    · rw [List.find?_cons_of_pos (by simpa using hkey), Option.some.injEq] at hfind
      subst hfind
      exact ⟨m, by rw [if_pos hkey]; rfl, hhead, hkey⟩
    · rw [List.find?_cons_of_neg (by simpa using hkey)] at hfind
      obtain ⟨n, hn, hrest⟩ := ih hfind
      exact ⟨n, by rw [if_neg hkey, List.getElem?_cons_succ]; exact hn, hrest⟩

/-- The first entry of the key was made before the others of the key. -/
theorem forall₂_notBefore (h : List.Forall₂ R es ns) (hsorted : ns.Pairwise (· < ·))
    (hfirst : ns[firstIdx es key]? = some p) : List.Forall₂ (NotBefore key p) es ns := by
  induction h with
  | nil => exact .nil
  | @cons x m es ns hhead htail ih =>
    obtain ⟨hlt, hsorted⟩ := List.pairwise_cons.mp hsorted
    rw [firstIdx_cons] at hfirst
    by_cases hkey : x.key = key
    · rw [if_pos hkey, List.getElem?_cons_zero, Option.some.injEq] at hfirst
      subst hfirst
      refine .cons (fun _ => le_rfl) ?_
      rw [List.forall₂_iff_zip]
      exact ⟨htail.length_eq, fun hmem _ => (hlt _ (List.of_mem_zip hmem).2).le⟩
    · rw [if_neg hkey, List.getElem?_cons_succ] at hfirst
      exact .cons (fun h => absurd h hkey) (ih hsorted hfirst)

/-- Without it the others remain, which were made later. -/
theorem forall₂_notBefore_erase (h : List.Forall₂ (NotBefore key p) es ns) (hsorted : ns.Pairwise (· < ·)) :
    List.Forall₂ (NotBefore key (p + 1)) (es.eraseIdx (firstIdx es key)) (ns.eraseIdx (firstIdx es key)) := by
  induction h with
  | nil => exact .nil
  | @cons x m es ns hhead htail ih =>
    obtain ⟨hlt, hsorted⟩ := List.pairwise_cons.mp hsorted
    rw [firstIdx_cons]
    by_cases hkey : x.key = key
    · rw [if_pos hkey, List.eraseIdx_cons_zero, List.eraseIdx_cons_zero, List.forall₂_iff_zip]
      refine ⟨htail.length_eq, fun hmem _ => ?_⟩
      have hp : p ≤ m := hhead hkey
      exact hp.trans_lt (hlt _ (List.of_mem_zip hmem).2)
    · rw [if_neg hkey, List.eraseIdx_cons_succ, List.eraseIdx_cons_succ]
      exact .cons (fun h => absurd h hkey) (ih hsorted)

end Lists

/-! ## One operation -/

section Step

variable {R R' : Entry → Nat → Prop} {s : Traced} {c c' : Cache} {places : List Nat} {n : Nat} {op : Op}

theorem Held.imp (hR : ∀ e n, R e n → R' e n) (h : Held R s) : Held R' s := fun c hc => (h c hc).imp hR

theorem held_get (hhit : ∀ e n, R e n → R { e with hits := e.hits + 1 } n) (h : List.Forall₂ R c.entries places)
    (now : Int) (key : CString) : List.Forall₂ R (get c now key).2.entries (placesAfterGet c places now key) := by
  rw [get, placesAfterGet]
  split
  · exact h
  · cases findKey c.entries key with
    | none => exact h
    | some e =>
      dsimp only
      split
      · dsimp only [dropFirst]
        rw [eraseP_key]
        exact forall₂_eraseIdx h _
      · exact forall₂_hitFirst hhit h

/-- **One operation** keeps a relation that counting a hit keeps and that the entry of a `put` has to its place. -/
theorem Held.step (hhit : ∀ e n, R e n → R { e with hits := e.hits + 1 } n) (h : Held R s)
    (hput : ∀ now key value, op = .put now key value → ∀ c ∈ s.cache, R (newEntry c now key value) s.count) :
    Held R (s.step op) := by
  intro c' hc'
  obtain ⟨c, hc, happly⟩ := Option.bind_eq_some_iff.mp hc'
  have hheld := h c hc
  dsimp only [Traced.step]
  rw [hc, Option.elim_some]
  cases op with
  | put now key value =>
    have hnew := hput now key value rfl c hc
    simp only [apply, put] at happly
    rw [placesAfter]
    by_cases hdisabled : c.enabled = false
    · rw [if_pos hdisabled, Option.some.injEq] at happly
      rw [if_pos hdisabled, ← happly]
      exact hheld
    · rw [if_neg hdisabled] at happly ⊢
      have hsize : (newEntry c now key value).size = entrySize key value := rfl
      rw [hsize] at happly
      by_cases hfull : full c (entrySize key value) = true
      · rw [if_pos hfull, Option.map_eq_some_iff] at happly
        obtain ⟨evicted, hevict, rfl⟩ := happly
        rw [if_pos hfull]
        rw [evict] at hevict
        cases hget : c.entries[minHitsIdx c.entries]? with
        | none => simp [hget] at hevict
        | some e =>
          simp only [hget, Option.some.injEq] at hevict
          subst hevict
          exact forall₂_concat (forall₂_eraseIdx hheld _) hnew
      · rw [if_neg hfull, Option.some.injEq] at happly
        rw [if_neg hfull, ← happly]
        exact forall₂_concat hheld hnew
  | get now key =>
    obtain rfl := Option.some.inj happly
    exact held_get hhit hheld now key
  | contains now key =>
    obtain rfl := Option.some.inj happly
    exact held_get hhit hheld now key
  | remove key =>
    obtain rfl := Option.some.inj happly
    rw [remove_entries, eraseP_key]
    exact forall₂_eraseIdx hheld _
  | clear =>
    obtain rfl := Option.some.inj happly
    exact .nil

/-- The places of the entries that stay, and perhaps a new one. -/
theorem placesAfter_sublist (c : Cache) (places : List Nat) (n : Nat) (op : Op) :
    List.Sublist (placesAfter c places n op) (places ++ [n]) := by
  have herase (i : Nat) : List.Sublist (places.eraseIdx i) (places ++ [n]) :=
    (List.eraseIdx_sublist places i).trans (List.sublist_append_left _ _)
  have hget (now : Int) (key : CString) : List.Sublist (placesAfterGet c places now key) (places ++ [n]) := by
    rw [placesAfterGet]
    split
    · exact List.sublist_append_left _ _
    · cases findKey c.entries key with
      | none => exact List.sublist_append_left _ _
      | some e =>
        dsimp only
        split
        · exact herase _
        · exact List.sublist_append_left _ _
  cases op with
  | put now key value =>
    rw [placesAfter]
    split
    · exact List.sublist_append_left _ _
    · split
      · exact (List.eraseIdx_sublist places _).append (List.Sublist.refl _)
      · exact List.Sublist.refl _
  | get now key => exact hget now key
  | contains now key => exact hget now key
  | remove key => exact herase _
  | clear => exact List.nil_sublist _

theorem apply_ttl (h : apply c op = some c') : c'.ttlSeconds = c.ttlSeconds := by
  have hget (now : Int) (key : CString) : (get c now key).2.ttlSeconds = c.ttlSeconds := by
    rw [get]
    split
    · rfl
    · cases findKey c.entries key with
      | none => rfl
      | some e =>
        dsimp only
        split <;> rfl
  cases op with
  | put now key value =>
    simp only [apply, put, evict] at h
    split at h
    · rw [← Option.some.inj h]
    · split at h
      · obtain ⟨evicted, hevict, rfl⟩ := Option.map_eq_some_iff.mp h
        split at hevict
        · cases hevict
        · rw [← Option.some.inj hevict, append]
      · rw [← Option.some.inj h, append]
  | get now key => rw [← Option.some.inj h, hget]
  | contains now key => rw [← Option.some.inj h]; exact hget now key
  | remove key =>
    rw [← Option.some.inj h, remove]
    cases findKey c.entries key <;> rfl
  | clear => rw [← Option.some.inj h, clear]

end Step

/-! ## Runs -/

/-- The `put` that made an entry, with no `clear` since. -/
def MadeBy (ops : List Op) (e : Entry) (n : Nat) : Prop :=
  ops[n]? = some (.put e.createdAt e.key e.value) ∧ ∀ j, n < j → ops[j]? ≠ some .clear

/-- The state after a run of a cache without entries. -/
def traced (c : Cache) (ops : List Op) : Traced := run Traced.step ⟨some c, [], 0⟩ ops

/-- What holds after a run. -/
structure Inv (c : Cache) (ops : List Op) (s : Traced) : Prop where
  count : s.count = ops.length
  cache : s.cache = run step (some c) ops
  ttl : ∀ c' ∈ s.cache, c'.ttlSeconds = c.ttlSeconds
  sorted : s.places.Pairwise (· < ·)
  made : Held (MadeBy ops) s

/-- The place of the `put` behind the answer of the `get` at place `i`. -/
def sourceAt (c : Cache) (ops : List Op) (i : Nat) : Nat :=
  match ops[i]? with
  | some (.get _ key) => (traced c (ops.take i)).source key
  | _ => 0

section Runs

variable {s : Traced} {c : Cache} {ops : List Op} {i j p : Nat} {key value : CString}

theorem MadeBy.lt {e : Entry} {n : Nat} (h : MadeBy ops e n) : n < ops.length :=
  (List.getElem?_eq_some_iff.mp h.1).1

theorem MadeBy.concat {op : Op} (hop : op ≠ .clear) {e : Entry} {n : Nat} (h : MadeBy ops e n) :
    MadeBy (ops ++ [op]) e n := by
  refine ⟨by rw [List.getElem?_append_left h.lt]; exact h.1, fun j hj => ?_⟩
  rcases Nat.lt_or_ge j ops.length with hlt | hge
  · rw [List.getElem?_append_left hlt]
    exact h.2 j hj
  · rw [List.getElem?_append_right hge, List.getElem?_singleton]
    split
    · exact fun hclear => hop (Option.some.inj hclear)
    · nofun

theorem Inv.place_lt (h : Inv c ops s) {c' : Cache} (hc : c' ∈ s.cache) {n : Nat} (hn : n ∈ s.places) :
    n < ops.length := by
  obtain ⟨i, hi, rfl⟩ := List.mem_iff_getElem.mp hn
  have hget := (List.forall₂_iff_get.mp (h.made c' hc)).2 i
  have hmade := hget ((h.made c' hc).length_eq ▸ hi) hi
  exact hmade.lt

theorem Inv.step (h : Inv c ops s) (op : Op) : Inv c (ops ++ [op]) (s.step op) := by
  refine ⟨?_, ?_, ?_, ?_, ?_⟩
  · rw [List.length_append, List.length_singleton, ← h.count, Traced.step]
  · rw [run_append, ← h.cache]
    rfl
  · intro c' hc'
    obtain ⟨c₁, hc₁, happly⟩ := Option.bind_eq_some_iff.mp hc'
    rw [apply_ttl happly, h.ttl c₁ hc₁]
  · rw [Traced.step]
    cases hcache : s.cache with
    | none => exact List.Pairwise.nil
    | some c₁ =>
      refine List.Pairwise.sublist (placesAfter_sublist c₁ s.places s.count op) ?_
      rw [List.pairwise_append]
      refine ⟨h.sorted, List.pairwise_singleton _ _, fun n hn m hm => ?_⟩
      rw [List.mem_singleton.mp hm, h.count]
      exact h.place_lt hcache hn
  · by_cases hop : op = .clear
    · subst hop
      intro c' hc'
      obtain ⟨c₁, hc₁, happly⟩ := Option.bind_eq_some_iff.mp hc'
      obtain rfl := Option.some.inj happly
      rw [Traced.step, hc₁]
      exact .nil
    · refine (h.made.imp fun e n => MadeBy.concat hop).step (fun e n he => he) ?_
      rintro now key value rfl c₁ -
      rw [h.count]
      refine ⟨by rw [List.getElem?_concat_length]; rfl, fun j hj => ?_⟩
      rw [List.getElem?_eq_none (by rw [List.length_append, List.length_singleton]; omega)]
      nofun

theorem inv_traced (hc : c.entries = []) (ops : List Op) : Inv c ops (traced c ops) := by
  induction ops using List.reverseRecOn with
  | nil =>
    refine ⟨rfl, rfl, ?_, List.Pairwise.nil, ?_⟩
    · rintro c' hc'
      rw [Option.mem_some_iff.mp hc']
    · rintro c' hc'
      rw [← Option.mem_some_iff.mp hc', hc]
      exact .nil
  | append_singleton ops op ih =>
    rw [traced, run_append]
    exact ih.step op

/-- What an answer rests on. -/
theorem hit_spec (hc : c.entries = []) {now : Int} (h : HitAt c ops i now key value) :
    ∃ c' e, (traced c (ops.take i)).cache = some c' ∧ findKey c'.entries key = some e ∧ e.key = key ∧
      e.value = value ∧ now - e.createdAt ≤ c.ttlSeconds ∧
      (traced c (ops.take i)).places[firstIdx c'.entries key]? = some (sourceAt c ops i) ∧
      MadeBy (ops.take i) e (sourceAt c ops i) := by
  obtain ⟨hop, c', hrun, hget⟩ := h
  have hinv := inv_traced hc (ops.take i)
  have hcache : (traced c (ops.take i)).cache = some c' := hinv.cache.trans hrun
  rw [get] at hget
  split at hget
  · cases hget
  · cases hfind : findKey c'.entries key with
    | none => simp [hfind] at hget
    | some e =>
      simp only [hfind] at hget
      split at hget
      · cases hget
      · next hfresh =>
        obtain ⟨n, hn, hmade, hkey⟩ := forall₂_find (hinv.made c' hcache) hfind
        have hsource : sourceAt c ops i = n := by
          rw [sourceAt, hop]
          dsimp only
          rw [Traced.source, hcache, Option.elim_some, hn, Option.getD_some]
        rw [hsource]
        refine ⟨c', e, hcache, hfind, hkey, Option.some.inj hget, ?_, hn, hmade⟩
        rw [← hinv.ttl c' hcache]
        simpa [expired] using hfresh

/-- What was made before stays made before. -/
theorem held_run (h : Held (NotBefore key p) s) (hp : p ≤ s.count) (ops : List Op) :
    Held (NotBefore key p) (run Traced.step s ops) := by
  have hstep : ∀ s op, (Held (NotBefore key p) s ∧ p ≤ s.count) →
      (Held (NotBefore key p) (Traced.step s op) ∧ p ≤ (Traced.step s op).count) := fun s op hs =>
    ⟨hs.1.step (fun e n he => he) fun _ _ _ _ _ _ _ => hs.2, hs.2.trans (Nat.le_succ _)⟩
  exact (allStates_of_step hstep ⟨h, hp⟩).run_mem.1

theorem traced_take (c : Cache) (ops : List Op) (h : i ≤ j) :
    traced c (ops.take j) = run Traced.step (traced c (ops.take i)) ((ops.take j).drop i) := by
  have hsplit : ops.take j = ops.take i ++ (ops.take j).drop i := by
    conv_lhs => rw [← List.take_append_drop i (ops.take j)]
    rw [List.take_take, Nat.min_eq_left h]
  rw [hsplit, traced, run_append, ← hsplit, traced]

/-- After an answer no entry of the key was made before the one that answered. -/
theorem held_of_hit (hc : c.entries = []) {now : Int} (h : HitAt c ops i now key value) (hij : i ≤ j) :
    Held (NotBefore key (sourceAt c ops i)) (traced c (ops.take j)) := by
  obtain ⟨c', e, hcache, -, -, -, -, hn, hmade⟩ := hit_spec hc h
  have hinv := inv_traced hc (ops.take i)
  rw [traced_take c ops hij]
  refine held_run ?_ (by rw [hinv.count]; exact hmade.lt.le) _
  intro c₁ hc₁
  obtain rfl : c' = c₁ := Option.some.inj (hcache.symm.trans hc₁)
  exact forall₂_notBefore (hinv.made c' hcache) hinv.sorted hn

theorem source_ge (hc : c.entries = []) {now : Int} (h : HitAt c ops j now key value)
    (hheld : Held (NotBefore key p) (traced c (ops.take j))) : p ≤ sourceAt c ops j := by
  obtain ⟨c', e, hcache, hfind, hkey, -, -, hn, -⟩ := hit_spec hc h
  obtain ⟨n, hn', hle, -⟩ := forall₂_find (hheld c' hcache) hfind
  rw [hn, Option.some.injEq] at hn'
  rw [hn']
  exact hle hkey

end Runs

/-- **Bounded staleness and monotonic reads**, whatever is evicted, expires or is removed. -/
theorem hits_sourced {maxEntries maxSizeBytes ttlSeconds : Int} {c : Cache}
    (hnew : new maxEntries maxSizeBytes ttlSeconds = some c) (ops : List Op) : ∃ source, Sourced c ops source := by
  have hc : c.entries = [] := (new_enabled hnew).2
  refine ⟨sourceAt c ops, ?_, ?_, ?_⟩
  · intro i now key value h
    obtain ⟨c', e, -, -, rfl, rfl, hfresh, -, hmade⟩ := hit_spec hc h
    have hlt : sourceAt c ops i < i := hmade.lt.trans_le (List.length_take_le i ops)
    obtain ⟨hput, hclear⟩ := hmade
    rw [List.getElem?_take_of_lt hlt] at hput
    refine ⟨hlt, ⟨e.createdAt, hput, hfresh⟩, fun j hj hji => ?_⟩
    have hnot := hclear j hj
    rwa [List.getElem?_take_of_lt hji] at hnot
  · intro i now value j now' value' key hi hj hij
    exact source_ge hc hj (held_of_hit hc hi hij)
  · intro i now value r j now' value' key hi hj hir hrj hremove
    have hinv := inv_traced hc (ops.take r)
    have hheld := held_of_hit hc hi hir.le
    obtain ⟨_, _, -, -, -, -, -, -, hmade⟩ := hit_spec hc hi
    have hlt : sourceAt c ops i < i := hmade.lt.trans_le (List.length_take_le i ops)
    have hr : r < ops.length := (List.getElem?_eq_some_iff.mp hremove).1
    refine source_ge hc hj ?_
    have hstep : traced c (ops.take (r + 1)) = (traced c (ops.take r)).step (.remove key) := by
      rw [List.take_add_one, hremove, traced, run_append]
      rfl
    rw [traced_take c ops hrj]
    refine held_run ?_ ?_ _
    · rw [hstep]
      intro c₂ hc₂
      obtain ⟨c₁, hc₁, happly⟩ := Option.bind_eq_some_iff.mp hc₂
      obtain rfl := Option.some.inj happly
      rw [Traced.step, hc₁, Option.elim_some, remove_entries, eraseP_key]
      exact forall₂_notBefore_erase (hheld c₁ hc₁) hinv.sorted
    · rw [(inv_traced hc (ops.take (r + 1))).count, List.length_take]
      omega

/-- Two values under one key, the older one of which is removed after it was read. -/
theorem hits_sourced_two : ∃ c, new 4 1000 60 = some c ∧ ∃ source,
    Sourced c [.put 0 "k" "old", .put 1 "k" "new", .get 2 "k", .remove "k", .get 3 "k"] source :=
  ⟨⟨[], 4, 1000, 0, 60, true⟩, rfl, hits_sourced (c := ⟨[], 4, 1000, 0, 60, true⟩) (rfl : new 4 1000 60 = _) _⟩

end Sirah.RequestCache
