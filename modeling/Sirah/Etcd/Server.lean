import Mathlib.Data.List.Sort
import Sirah.Etcd.Client

/-!
# An etcd that stores what is put

The server the endpoints talk to, as far as its documentation promises it: a key holds a value with the
revisions of its creation and last modification, `range` answers the keys of a lexicographic range in
their order, and the JSON gateway answers in proto3's JSON (bytes in base64, 64-bit numbers as strings,
empty fields left out).

`Server` carries two facts: a key is stored once, and its modification revision is positive (so that the
revision 0, which etcd also gives for an absent key, is no stored key's).
-/

namespace Sirah.Etcd

/-- A key with its value. -/
structure Kv where
  key : CString
  value : CString
  createRevision : Nat
  modRevision : Nat
  version : Nat
  deriving DecidableEq, Repr

/-- A put at revision `rev`. -/
def putKv (rev : Nat) (key value : CString) : List Kv → List Kv
  | [] => [⟨key, value, rev, rev, 1⟩]
  | kv :: kvs =>
    if kv.key = key then
      { kv with value := value, modRevision := rev, version := kv.version + 1 } :: kvs
    else kv :: putKv rev key value kvs

theorem mem_putKv {rev : Nat} {key value : CString} {kv : Kv} {kvs : List Kv}
    (h : kv ∈ putKv rev key value kvs) :
    kv ∈ kvs ∨ (kv.key = key ∧ kv.value = value ∧ kv.modRevision = rev) := by
  induction kvs with
  | nil =>
    obtain rfl := List.mem_singleton.mp h
    exact .inr ⟨rfl, rfl, rfl⟩
  | cons x xs ih =>
    unfold putKv at h
    split at h
    · rcases List.mem_cons.mp h with rfl | h
      · rename_i hx
        exact .inr ⟨hx, rfl, rfl⟩
      · exact .inl (List.mem_cons_of_mem x h)
    · rcases List.mem_cons.mp h with rfl | h
      · exact .inl List.mem_cons_self
      · exact (ih h).imp_left (List.mem_cons_of_mem x)

theorem exists_mem_putKv (rev : Nat) (key value : CString) (kvs : List Kv) :
    ∃ kv ∈ putKv rev key value kvs, kv.key = key ∧ kv.value = value ∧ kv.modRevision = rev := by
  induction kvs with
  | nil => exact ⟨_, List.mem_singleton_self _, rfl, rfl, rfl⟩
  | cons x xs ih =>
    unfold putKv
    split
    · rename_i hx
      exact ⟨_, List.mem_cons_self, hx, rfl, rfl⟩
    · obtain ⟨kv, hkv, h⟩ := ih
      exact ⟨kv, List.mem_cons_of_mem x hkv, h⟩

/-- A put adds its key, unless it is there. -/
theorem keys_putKv (rev : Nat) (key value : CString) (kvs : List Kv) :
    (putKv rev key value kvs).map Kv.key =
      if key ∈ kvs.map Kv.key then kvs.map Kv.key else kvs.map Kv.key ++ [key] := by
  induction kvs with
  | nil => rfl
  | cons x xs ih =>
    by_cases hx : x.key = key
    · simp [putKv, hx]
    · have hx' : key ≠ x.key := Ne.symm hx
      by_cases hmem : key ∈ xs.map Kv.key
      · rw [if_pos hmem] at ih
        rw [putKv, if_neg hx, List.map_cons, List.map_cons, ih,
          if_pos (List.mem_cons_of_mem x.key hmem)]
      · rw [if_neg hmem] at ih
        rw [putKv, if_neg hx, List.map_cons, List.map_cons, ih, if_neg, List.cons_append]
        simpa [hx'] using hmem

/-- The server. -/
structure Server where
  revision : Nat
  kvs : List Kv
  nodup : (kvs.map Kv.key).Nodup
  modRevision_pos : ∀ kv ∈ kvs, 0 < kv.modRevision

namespace Server

/-- A server that holds nothing. -/
def empty : Server := ⟨1, [], List.nodup_nil, nofun⟩

/-- What a key holds. -/
def find (s : Server) (key : CString) : Option Kv := s.kvs.find? (·.key = key)

def put (s : Server) (key value : CString) : Server where
  revision := s.revision + 1
  kvs := putKv (s.revision + 1) key value s.kvs
  nodup := by
    rw [keys_putKv]
    split
    · exact s.nodup
    · rename_i hnew
      exact List.nodup_append.mpr ⟨s.nodup, List.nodup_singleton key, fun a ha b hb =>
        fun hab => hnew (List.mem_singleton.mp hb ▸ hab ▸ ha)⟩
  modRevision_pos kv hkv := by
    rcases mem_putKv hkv with h | ⟨-, -, h⟩
    · exact s.modRevision_pos kv h
    · rw [h]
      exact Nat.succ_pos s.revision

def delete (s : Server) (key : CString) : Server where
  revision := if (s.find key).isSome then s.revision + 1 else s.revision
  kvs := s.kvs.filter (·.key ≠ key)
  nodup := (List.filter_sublist.map Kv.key).nodup s.nodup
  modRevision_pos kv hkv := s.modRevision_pos kv (List.mem_of_mem_filter hkv)

/-- The modification revision of a key, 0 if it is absent. -/
def modRevision (s : Server) (key : CString) : Nat := ((s.find key).map Kv.modRevision).getD 0

/-- The compare of a key's modification revision and the put, in one step. -/
def compareAndPut (s : Server) (key value : CString) (expectedRevision : Nat) : Option Server :=
  if s.modRevision key = expectedRevision then some (s.put key value) else none

/-- Is `k` asked for? Without a range end, only the key itself is. -/
def inRange (key rangeEnd k : CString) : Bool :=
  if rangeEnd = [] then k = key else ¬ k < key && k < rangeEnd

/-- The keys of a range, in their order. -/
def range (s : Server) (key rangeEnd : CString) : List Kv :=
  (s.kvs.filter fun kv => inRange key rangeEnd kv.key).insertionSort fun a b => a.key ≤ b.key

/-! ## Finding -/

theorem find_some {s : Server} {key : CString} {kv : Kv} (h : s.find key = some kv) :
    kv ∈ s.kvs ∧ kv.key = key :=
  ⟨List.mem_of_find?_eq_some h, by simpa using List.find?_some h⟩

theorem find_of_mem {s : Server} {kv : Kv} (h : kv ∈ s.kvs) : s.find kv.key = some kv := by
  cases hf : s.find kv.key with
  | none => exact absurd (List.find?_eq_none.mp hf kv h) (by simp)
  | some kv' =>
    obtain ⟨hmem, hkey⟩ := find_some hf
    rw [List.inj_on_of_nodup_map s.nodup hmem h hkey]

/-- **What is put is found.** -/
theorem find_put (s : Server) (key value : CString) :
    ∃ kv, (s.put key value).find key = some kv ∧ kv.value = value ∧
      kv.modRevision = s.revision + 1 := by
  obtain ⟨kv, hkv, rfl, hvalue, hrev⟩ := exists_mem_putKv (s.revision + 1) key value s.kvs
  exact ⟨kv, find_of_mem (s := s.put kv.key value) hkv, hvalue, hrev⟩

/-- **A put leaves the other keys alone.** -/
theorem find_put_ne (s : Server) {key other : CString} (value : CString) (h : key ≠ other) :
    (s.put key value).find other = s.find other := by
  unfold find put
  dsimp only
  induction s.kvs with
  | nil => simp [putKv, h]
  | cons x xs ih =>
    unfold putKv
    split
    · next hx =>
      have hne : x.key ≠ other := fun hxo => h (hx.symm.trans hxo)
      rw [List.find?_cons_of_neg (by simpa using hne), List.find?_cons_of_neg (by simpa using hne)]
    · rw [List.find?_cons, List.find?_cons, ih]

/-- **So does a delete.** -/
theorem find_delete_ne (s : Server) {key other : CString} (h : key ≠ other) :
    (s.delete key).find other = s.find other := by
  unfold find delete
  dsimp only
  rw [List.find?_filter]
  congr 1
  funext kv
  by_cases hkv : kv.key = other
  · simp [hkv, Ne.symm h]
  · simp [hkv]

/-- A stored key's revision is never 0. -/
theorem modRevision_ne_zero {s : Server} {key : CString} {kv : Kv} (h : s.find key = some kv) :
    s.modRevision key ≠ 0 := by
  unfold modRevision
  rw [h]
  exact (s.modRevision_pos kv (find_some h).1).ne'

/-- A stored key is never overwritten at revision 0. -/
theorem compareAndPut_zero {s : Server} {key : CString} {kv : Kv} (h : s.find key = some kv)
    (value : CString) : s.compareAndPut key value 0 = none :=
  if_neg (modRevision_ne_zero h)

/-! ## Ranges -/

theorem range_perm (s : Server) (key rangeEnd : CString) :
    (s.range key rangeEnd).Perm (s.kvs.filter fun kv => inRange key rangeEnd kv.key) :=
  List.perm_insertionSort _ _

/-- The range of one key. -/
theorem range_key (s : Server) (key : CString) : s.range key [] = (s.find key).toList := by
  have hfilter : (s.kvs.filter fun kv => inRange key [] kv.key) = (s.find key).toList := by
    simp only [inRange, if_pos]
    cases hf : s.find key with
    | none =>
      rw [Option.toList_none, List.filter_eq_nil_iff]
      exact fun kv hkv => List.find?_eq_none.mp hf kv hkv
    | some kv =>
      obtain ⟨hmem, hkey⟩ := find_some hf
      rw [Option.toList_some]
      refine List.perm_singleton.mp ((List.perm_ext_iff_of_nodup ?_ (List.nodup_singleton kv)).mpr ?_)
      · exact s.nodup.of_map.filter _
      · intro x
        simp only [List.mem_filter, decide_eq_true_eq, List.mem_singleton]
        constructor
        · rintro ⟨hx, hxk⟩
          exact List.inj_on_of_nodup_map s.nodup hx hmem (hxk.trans hkey.symm)
        · rintro rfl
          exact ⟨hmem, hkey⟩
  unfold range
  rw [hfilter]
  cases s.find key <;> rfl

/-- The range `etcd_list` asks for: the keys with the prefix, none if its last byte overflows. -/
theorem inRange_rangeEnd {pre : CString} (hpre : 1 < pre.length) (k : CString) :
    inRange pre (rangeEnd pre) k = true ↔ pre.getLast? ≠ some 255 ∧ pre <+: k := by
  obtain ⟨p, c, rfl⟩ : ∃ p c, pre = p ++ [c] :=
    ⟨pre.dropLast, pre.getLast (by rintro rfl; simp at hpre), (List.dropLast_append_getLast _).symm⟩
  have hp : p ≠ [] := by
    rintro rfl
    simp at hpre
  simp only [rangeEnd, List.getLast?_concat, List.dropLast_concat]
  by_cases hc : c = 255
  · rw [if_pos hc, inRange, if_neg hp]
    simp only [hc, ne_eq, not_true_eq_false, false_and, iff_false, decide_not, Bool.and_eq_true,
      Bool.not_eq_true', decide_eq_false_iff_not, decide_eq_true_eq, not_and]
    exact fun hge hlt => hge (CString.lt_append_of_lt hlt)
  · rw [if_neg hc, inRange, if_neg (by simp)]
    simp only [ne_eq, Option.some.injEq, hc, not_false_eq_true, true_and, CString.prefix_iff_range hc,
      decide_not, Bool.and_eq_true, Bool.not_eq_true', decide_eq_false_iff_not, decide_eq_true_eq]

end Server

end Sirah.Etcd
