import Sirah.Lib.CString
import Sirah.Lib.Run

/-!
# The request cache as a finite map

Model of `k8s_request_cache_t` (`sirah/internal/cache/request_cache.c`). The entries are an array in
insertion order; `realloc` and `calloc` succeed. Time is an argument: each operation is given the
value `time(NULL)` returns to it.

* `put` appends without looking for the key (`request_cache.c:79-144`). When the cache is full it
  first drops the entry with the fewest hits. On an empty cache that eviction reads `entries[0]` of
  an empty array, so `put` has no result there.
* `get` (`:146-176`) and `remove` (`:185-203`) stop at the first entry with the key. `get` drops the
  entry when it has expired, and counts a hit otherwise.

The purpose of the cache is a finite map from keys to the value last put: `MapView`, over the same
operations. **`refines_iff`**: with nothing expired and nothing evicted, a run of the cache agrees
with the map in every state iff it never puts a second value under a live key and never removes a
key it holds twice.
-/

namespace Sirah.RequestCache

open Runs

/-- `k8s_cache_entry_t`. -/
structure Entry where
  key : CString
  value : CString
  createdAt : Int
  expiresAt : Int
  hits : Nat
  size : Nat
  deriving DecidableEq, Repr

/-- `sizeof(k8s_cache_entry_t)` on a 64-bit host: two pointers, two times, two ints. -/
def entryStructSize : Nat := 40

/-- `k8s_cache_entry_size`. -/
def entrySize (key value : CString) : Nat := key.length + value.length + entryStructSize

/-- `k8s_request_cache_t`. `num_entries` is the length of `entries`. -/
structure Cache where
  entries : List Entry
  maxEntries : Nat
  maxSizeBytes : Nat
  currentSizeBytes : Int
  ttlSeconds : Nat
  enabled : Bool
  deriving DecidableEq, Repr

/-- `k8s_request_cache_new`: `NULL` unless all three limits are positive. -/
def new (maxEntries maxSizeBytes ttlSeconds : Int) : Option Cache :=
  if maxEntries ≤ 0 ∨ maxSizeBytes ≤ 0 ∨ ttlSeconds ≤ 0 then none
  else some ⟨[], maxEntries.toNat, maxSizeBytes.toNat, 0, ttlSeconds.toNat, true⟩

/-- `k8s_cache_entry_expired`. -/
def expired (c : Cache) (now : Int) (e : Entry) : Bool := decide (now - e.createdAt > c.ttlSeconds)

/-- The eviction loop of `put`: `min_hits` and `min_idx` after the entries up to `i`. -/
def minHitsLoop : List Entry → (i minHits minIdx : Nat) → Nat
  | [], _, _, minIdx => minIdx
  | e :: es, i, minHits, minIdx =>
    if e.hits < minHits then minHitsLoop es (i + 1) e.hits i
    else minHitsLoop es (i + 1) minHits minIdx

/-- The index the eviction loop settles on, from `min_hits = INT_MAX` and `min_idx = 0`. -/
def minHitsIdx (es : List Entry) : Nat := minHitsLoop es 0 2147483647 0

/-- The eviction of `put`; without an entry to evict it reads past the array. -/
def evict (c : Cache) : Option Cache :=
  match c.entries[minHitsIdx c.entries]? with
  | none => none
  | some e => some { c with
      entries := c.entries.eraseIdx (minHitsIdx c.entries)
      currentSizeBytes := c.currentSizeBytes - e.size }

/-- The test of `put` before it evicts. -/
def full (c : Cache) (size : Nat) : Bool :=
  decide (c.maxEntries ≤ c.entries.length) || decide (c.currentSizeBytes + size > c.maxSizeBytes)

/-- The entry `put` builds. -/
def newEntry (c : Cache) (now : Int) (key value : CString) : Entry :=
  ⟨key, value, now, now + c.ttlSeconds, 0, entrySize key value⟩

/-- The append at the end of `put`. -/
def append (c : Cache) (e : Entry) : Cache :=
  { c with entries := c.entries ++ [e], currentSizeBytes := c.currentSizeBytes + e.size }

/-- `k8s_request_cache_put`. -/
def put (c : Cache) (now : Int) (key value : CString) : Option Cache :=
  if c.enabled = false then some c
  else
    let e := newEntry c now key value
    if full c e.size then (evict c).map (append · e) else some (append c e)

/-- The first entry of the key, where `get` and `remove` stop. -/
def findKey (es : List Entry) (key : CString) : Option Entry := es.find? fun e => e.key = key

/-- The removal both `get` and `remove` perform: the first entry of the key leaves the array. -/
def dropFirst (c : Cache) (key : CString) (e : Entry) : Cache :=
  { c with
    entries := c.entries.eraseP fun e => e.key = key
    currentSizeBytes := c.currentSizeBytes - e.size }

/-- `entry->hits++` on the first entry of the key. -/
def hitFirst (key : CString) : List Entry → List Entry
  | [] => []
  | e :: es => if e.key = key then { e with hits := e.hits + 1 } :: es else e :: hitFirst key es

/-- `k8s_request_cache_get`: the value on a hit, `none` on a miss. -/
def get (c : Cache) (now : Int) (key : CString) : Option CString × Cache :=
  if c.enabled = false then (none, c)
  else
    match findKey c.entries key with
    | none => (none, c)
    | some e =>
      if expired c now e then (none, dropFirst c key e)
      else (some e.value, { c with entries := hitFirst key c.entries })

/-- `k8s_request_cache_contains`. -/
def contains (c : Cache) (now : Int) (key : CString) : Bool × Cache :=
  ((get c now key).1.isSome, (get c now key).2)

/-- `k8s_request_cache_remove`: `0` when an entry was removed, `-1` otherwise. -/
def remove (c : Cache) (key : CString) : Int × Cache :=
  match findKey c.entries key with
  | none => (-1, c)
  | some e => (0, dropFirst c key e)

/-- `k8s_request_cache_clear`. -/
def clear (c : Cache) : Cache := { c with entries := [], currentSizeBytes := 0 }

/-- The operations of a run, each with the time it is made at. -/
inductive Op where
  | put (now : Int) (key value : CString)
  | get (now : Int) (key : CString)
  | contains (now : Int) (key : CString)
  | remove (key : CString)
  | clear
  deriving DecidableEq, Repr

/-- One operation. -/
def apply (c : Cache) : Op → Option Cache
  | .put now k v => put c now k v
  | .get now k => some (get c now k).2
  | .contains now k => some (contains c now k).2
  | .remove k => some (remove c k).2
  | .clear => some (clear c)

/-! ## The abstract map -/

/-- What the cache is for: a partial map from keys to values. -/
abbrev MapView := CString → Option CString

/-- `put` binds, `remove` unbinds, `clear` unbinds everything, reads change nothing. -/
def MapView.apply (m : MapView) : Op → MapView
  | .put _ k v => fun q => if q = k then some v else m q
  | .remove k => fun q => if q = k then none else m q
  | .clear => fun _ => none
  | .get _ _ => m
  | .contains _ _ => m

/-- The value of the last `put` of `k` that no `remove` of `k` and no `clear` follows. -/
def lastPut (ops : List Op) (k : CString) : Option CString :=
  run MapView.apply (fun _ => none) ops k

/-! ## The refinement -/

/-- A run's step: a `put` that evicts from an empty cache ends the run. -/
def step (c : Option Cache) (op : Op) : Option Cache := c.bind (apply · op)

/-- Nothing expires and nothing is evicted in this step. -/
def Quiet (c : Option Cache) : Op → Prop
  | .put _ k v => ∀ c' ∈ c, full c' (entrySize k v) = false
  | .get now k => ∀ c' ∈ c, ∀ e ∈ findKey c'.entries k, expired c' now e = false
  | .contains now k => ∀ c' ∈ c, ∀ e ∈ findKey c'.entries k, expired c' now e = false
  | .remove _ => True
  | .clear => True

/-- `get` answers as the map does, for every key and at every time at which the key's entry has not
expired. -/
def Agrees (c : Option Cache) (m : MapView) : Prop :=
  ∃ c', c = some c' ∧ ∀ now k, (∀ e ∈ findKey c'.entries k, expired c' now e = false) →
    (get c' now k).1 = m k

/-- The step binds no second value to a live key and removes no key that is held twice. -/
def SingleValued (c : Option Cache) : Op → Prop
  | .put _ k v => ∀ c' ∈ c, ∀ e ∈ findKey c'.entries k, e.value = v
  | .remove k => ∀ c' ∈ c, (c'.entries.filter fun e => e.key = k).length ≤ 1
  | _ => True

/-- The value the first entry of the key holds. -/
def valueOf (es : List Entry) (k : CString) : Option CString := (findKey es k).map Entry.value

/-- The invariant of the runs below: the cache is there and enabled. -/
def Enabled (c : Option Cache) : Prop := ∃ c', c = some c' ∧ c'.enabled = true

/-! ### Where the first entry of a key stands after each operation -/

theorem valueOf_append (es : List Entry) (e : Entry) (q : CString) :
    valueOf (es ++ [e]) q = (valueOf es q).or (if e.key = q then some e.value else none) := by
  unfold valueOf findKey
  rw [List.find?_append]
  cases es.find? (fun e => e.key = q) with
  | some e' => simp
  | none => by_cases h : e.key = q <;> simp [h]

theorem valueOf_hitFirst (es : List Entry) (k q : CString) :
    valueOf (hitFirst k es) q = valueOf es q := by
  unfold valueOf findKey
  induction es with
  | nil => rfl
  | cons e es ih =>
    simp only [hitFirst]
    split
    · by_cases hq : e.key = q <;> simp [hq]
    · by_cases hq : e.key = q
      · simp [hq]
      · simpa [hq] using ih

theorem valueOf_eraseP_ne {es : List Entry} {k q : CString} (h : q ≠ k) :
    valueOf (es.eraseP fun e => e.key = k) q = valueOf es q := by
  unfold valueOf findKey
  induction es with
  | nil => rfl
  | cons e es ih =>
    by_cases hk : e.key = k
    · rw [List.eraseP_cons_of_pos (by simpa using hk)]
      simp [hk, Ne.symm h]
    · rw [List.eraseP_cons_of_neg (by simpa using hk)]
      by_cases hq : e.key = q
      · simp [hq]
      · simpa [hq] using ih

theorem valueOf_eq_none_iff {es : List Entry} {k : CString} :
    valueOf es k = none ↔ (es.filter fun e => e.key = k).length = 0 := by
  unfold valueOf findKey
  simp

/-- Removing the first entry of a key unbinds it exactly when there was no second one. -/
theorem valueOf_eraseP_self {es : List Entry} {k : CString} :
    valueOf (es.eraseP fun e => e.key = k) k = none ↔
      (es.filter fun e => e.key = k).length ≤ 1 := by
  induction es with
  | nil => simp [valueOf, findKey]
  | cons e es ih =>
    by_cases hk : e.key = k
    · simp only [List.eraseP_cons, hk, decide_true, cond_true, List.filter_cons, if_true,
        List.length_cons]
      rw [valueOf_eq_none_iff]
      omega
    · have hv : valueOf (e :: es.eraseP fun e => e.key = k) k =
          valueOf (es.eraseP fun e => e.key = k) k := by simp [valueOf, findKey, hk]
      simp only [List.eraseP_cons, hk, decide_false, cond_false, List.filter_cons]
      rw [hv, ih]
      simp

/-! ### Agreement is agreement of first entries -/

theorem get_value {c : Cache} (he : c.enabled = true) {now : Int} {k : CString}
    (hx : ∀ e ∈ findKey c.entries k, expired c now e = false) :
    (get c now k).1 = valueOf c.entries k := by
  unfold get valueOf
  rw [if_neg (by simp [he])]
  cases hf : findKey c.entries k with
  | none => rfl
  | some e => simp [hx e hf]

theorem get_entries {c : Cache} (he : c.enabled = true) {now : Int} {k : CString}
    (hx : ∀ e ∈ findKey c.entries k, expired c now e = false) (q : CString) :
    valueOf (get c now k).2.entries q = valueOf c.entries q := by
  unfold get
  rw [if_neg (by simp [he])]
  cases hf : findKey c.entries k with
  | none => rfl
  | some e =>
    simp only [hx e hf]
    exact valueOf_hitFirst c.entries k q

theorem agrees_iff {c : Cache} (he : c.enabled = true) {m : MapView} :
    Agrees (some c) m ↔ ∀ k, valueOf c.entries k = m k := by
  constructor
  · rintro ⟨c', hc, h⟩ k
    obtain rfl := Option.some.inj hc
    -- Read the key at the time its entry was created, when it has not expired.
    cases hf : findKey c.entries k with
    | none =>
      have hx : ∀ e ∈ findKey c.entries k, expired c 0 e = false := by simp [hf]
      rw [← get_value he hx, h 0 k hx]
    | some e =>
      have hx : ∀ e' ∈ findKey c.entries k, expired c e.createdAt e' = false := by
        intro e' he'
        rw [hf] at he'
        obtain rfl := Option.mem_some_iff.mp he'
        simp [expired]
      rw [← get_value he hx, h e.createdAt k hx]
  · intro h
    exact ⟨c, rfl, fun now k hx => (get_value he hx).trans (h k)⟩

/-! ### One step -/

theorem put_quiet {c : Cache} (he : c.enabled = true) {now : Int} {k v : CString}
    (h : full c (entrySize k v) = false) : put c now k v = some (append c (newEntry c now k v)) := by
  unfold put
  rw [if_neg (by simp [he])]
  simp only [newEntry, h]
  rfl

theorem get_enabled (c : Cache) (now : Int) (k : CString) :
    (get c now k).2.enabled = c.enabled := by
  unfold get
  split
  · rfl
  · split
    · rfl
    · split <;> rfl

theorem step_enabled {c : Option Cache} {op : Op} (hI : Enabled c) (hq : Quiet c op) :
    Enabled (step c op) := by
  obtain ⟨c, rfl, he⟩ := hI
  cases op with
  | put now k v => exact ⟨_, put_quiet he (hq c rfl), he⟩
  | get now k => exact ⟨_, rfl, by rw [get_enabled]; exact he⟩
  | contains now k => exact ⟨_, rfl, by rw [contains, get_enabled]; exact he⟩
  | remove k =>
    refine ⟨_, rfl, ?_⟩
    unfold remove
    split
    · exact he
    · exact he
  | clear => exact ⟨_, rfl, he⟩

/-- `remove` erases the first entry of the key, if there is one. -/
theorem remove_entries (c : Cache) (k : CString) :
    (remove c k).2.entries = c.entries.eraseP fun e => e.key = k := by
  unfold remove
  cases hf : findKey c.entries k with
  | none =>
    have hne : ∀ e ∈ c.entries, ¬ (decide (e.key = k) = true) := by
      simpa [findKey] using hf
    exact (List.eraseP_of_forall_not hne).symm
  | some e => rfl

/-- **One step.** A quiet step keeps the agreement exactly when it is single valued. -/
theorem step_agrees_iff {c : Option Cache} {m : MapView} {op : Op} (hI : Enabled c)
    (hq : Quiet c op) (ha : Agrees c m) :
    Agrees (step c op) (m.apply op) ↔ SingleValued c op := by
  have hI' := step_enabled hI hq
  obtain ⟨c, rfl, he⟩ := hI
  have hm := (agrees_iff he).mp ha
  cases op with
  | put now k v =>
    have hs : step (some c) (.put now k v) = some (append c (newEntry c now k v)) :=
      put_quiet he (hq c rfl)
    rw [hs, agrees_iff (by exact he)]
    simp only [append, valueOf_append, newEntry, MapView.apply, SingleValued, Option.mem_def,
      Option.some.injEq, forall_eq']
    constructor
    · intro h e hf
      have := h k
      simpa [valueOf, hf] using this
    · intro h q
      by_cases hqk : q = k
      · subst hqk
        cases hf : findKey c.entries q with
        | none => simp [valueOf, hf]
        | some e => simp [valueOf, hf, h e hf]
      · simp [hqk, Ne.symm hqk, hm q]
  | get now k =>
    rw [show step (some c) (.get now k) = some (get c now k).2 from rfl,
      agrees_iff (by rw [get_enabled]; exact he)]
    simp only [get_entries he (hq c rfl), MapView.apply, SingleValued, iff_true]
    exact hm
  | contains now k =>
    rw [show step (some c) (.contains now k) = some (get c now k).2 from rfl,
      agrees_iff (by rw [get_enabled]; exact he)]
    simp only [get_entries he (hq c rfl), MapView.apply, SingleValued, iff_true]
    exact hm
  | remove k =>
    have he' : (remove c k).2.enabled = true := by
      obtain ⟨c', hc', h⟩ := hI'
      exact (Option.some.inj hc') ▸ h
    rw [show step (some c) (.remove k) = some (remove c k).2 from rfl, agrees_iff he']
    simp only [remove_entries, MapView.apply, SingleValued, Option.mem_def, Option.some.injEq,
      forall_eq']
    rw [← valueOf_eraseP_self]
    constructor
    · intro h
      simpa using h k
    · intro h q
      by_cases hqk : q = k
      · subst hqk; simpa using h
      · rw [valueOf_eraseP_ne hqk, hm q, if_neg hqk]
  | clear =>
    rw [show step (some c) .clear = some (clear c) from rfl, agrees_iff (by exact he)]
    simp [clear, valueOf, findKey, MapView.apply, SingleValued]

/-! ### Whole runs -/

/-- The cache and the map, run side by side on the same operations. -/
def stepBoth (s : Option Cache × MapView) (op : Op) : Option Cache × MapView :=
  (step s.1 op, s.2.apply op)

theorem new_enabled {maxEntries maxSizeBytes ttlSeconds : Int} {c : Cache}
    (hc : new maxEntries maxSizeBytes ttlSeconds = some c) :
    c.enabled = true ∧ c.entries = [] := by
  unfold new at hc
  split at hc
  · exact absurd hc (by simp)
  · obtain rfl := Option.some.inj hc
    exact ⟨rfl, rfl⟩

/-- **The cache refines the map exactly on single-valued runs.** In a run of a new cache in which
nothing expires and nothing is evicted, `get` returns in every state the value of the last `put`
that no `remove` or `clear` follows, iff no step puts a second value under a live key or removes a
key that is held twice. -/
theorem refines_iff {maxEntries maxSizeBytes ttlSeconds : Int} {c : Cache}
    (hc : new maxEntries maxSizeBytes ttlSeconds = some c) {ops : List Op}
    (hq : AllSteps step Quiet (some c) ops) :
    (∀ pre, pre <+: ops → Agrees (run step (some c) pre) (lastPut pre)) ↔
      AllSteps step SingleValued (some c) ops := by
  obtain ⟨he, hnil⟩ := new_enabled hc
  have hfst : ∀ (s : Option Cache × MapView) op, (stepBoth s op).1 = step s.1 op := fun _ _ => rfl
  have hsnd : ∀ (s : Option Cache × MapView) op, (stepBoth s op).2 = s.2.apply op := fun _ _ => rfl
  have hstart : Agrees (some c) (fun _ => none) :=
    (agrees_iff he).mpr fun k => by simp [valueOf, findKey, hnil]
  have hrule : AllStates stepBoth (fun s => Agrees s.1 s.2) (some c, fun _ => none) ops ↔
      AllSteps stepBoth (fun s op => SingleValued s.1 op) (some c, fun _ => none) ops :=
    allStates_iff_allSteps (I := fun s => Enabled s.1) (A := fun s op => Quiet s.1 op)
      (fun _ _ hI hA => step_enabled hI hA) (fun _ _ hI hA hQ => step_agrees_iff hI hA hQ)
      ⟨c, rfl, he⟩ hstart ((allSteps_proj hfst).mpr hq)
  rw [← allSteps_proj hfst (s := (some c, fun _ => none)), ← hrule, allStates_iff_prefixes]
  refine forall_congr' fun pre => imp_congr_right fun _ => ?_
  rw [run_proj hfst, run_proj hsnd]
  rfl

/-- A run that puts a key, reads it, removes it and puts it again is single valued. -/
theorem refines_put_remove_put :
    ∃ c, new 4 1000 60 = some c ∧
      Agrees (run step (some c) [.put 0 "k" "old", .get 5 "k", .remove "k", .put 9 "k" "new"])
        (lastPut [.put 0 "k" "old", .get 5 "k", .remove "k", .put 9 "k" "new"]) := by
  refine ⟨⟨[], 4, 1000, 0, 60, true⟩, rfl, ?_⟩
  have hc : new 4 1000 60 = some ⟨[], 4, 1000, 0, 60, true⟩ := rfl
  refine (refines_iff hc ?_).mpr ?_ _ List.prefix_rfl
  · simp [AllSteps, Quiet, step, apply]
    decide
  · simp [AllSteps, SingleValued, step, apply]
    decide

/-- **A second `put` of a key is lost**: `get` keeps answering the first value. -/
theorem second_put_lost :
    ∃ c, new 4 1000 60 = some c ∧
      AllSteps step Quiet (some c) [.put 0 "k" "old", .put 1 "k" "new"] ∧
      lastPut [.put 0 "k" "old", .put 1 "k" "new"] "k" = some "new" ∧
      (run step (some c) [.put 0 "k" "old", .put 1 "k" "new"]).map (fun c => (get c 2 "k").1) =
        some (some (CString.ofString "old")) ∧
      ¬ Agrees (run step (some c) [.put 0 "k" "old", .put 1 "k" "new"])
        (lastPut [.put 0 "k" "old", .put 1 "k" "new"]) := by
  refine ⟨⟨[], 4, 1000, 0, 60, true⟩, rfl, ?_, rfl, rfl, ?_⟩
  · simp [AllSteps, Quiet, step, apply]
    decide
  · rintro ⟨c, hc, h⟩
    obtain rfl := Option.some.inj hc
    exact absurd (h 2 "k" (by decide)) (by decide)

end Sirah.RequestCache
