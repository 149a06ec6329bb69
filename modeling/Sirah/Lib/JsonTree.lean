import Mathlib.Data.List.Nodup
import Sirah.Lib.Json

/-!
# Trees of JSON values

Facts about the members of JSON objects, and rules for properties that hold at every depth.

* `members_induction`: a property of all values, from the values under the keys of an object to the object.
* `Distinct`: no object has a key twice, at any depth of objects.
* `eq_of_lookup`: members with the same distinct keys in the same order and the same values are the same.
* `lookup_setAll`: members added one after the other.
* `MergePatched target patch result`: the result is the target merged with the patch as RFC 7386 has it: what the
  patch does not mention stays, what is null in the patch goes, and the rest is merged. `rfc7386` is the algorithm
  (`mergePatched_rfc7386`).
-/

namespace Json

variable {k key : CString} {v w : Json} {ms ps : List (CString × Json)}

/-! ## Members -/

/-- The keys of an object, in order. -/
def keys (ms : List (CString × Json)) : List CString := ms.map Prod.fst

/-- The members of an object; anything else has none. -/
def members : Json → List (CString × Json)
  | obj ms => ms
  | _ => []

theorem keys_append (ms ps : List (CString × Json)) : keys (ms ++ ps) = keys ms ++ keys ps := List.map_append

@[simp] theorem getEx_obj (ms : List (CString × Json)) (k : CString) : (obj ms).getEx k = lookup k ms := rfl

theorem getEx_eq (j : Json) (k : CString) : j.getEx k = lookup k j.members := by cases j <;> rfl

theorem get_of_lookup (h : lookup k ms = some v) : (obj ms).get k = v := by rw [get, getEx_obj, h, Option.getD_some]

theorem mem_of_lookup (h : lookup k ms = some v) : (k, v) ∈ ms := by
  induction ms with
  | nil => cases h
  | cons m ms ih =>
    obtain ⟨k', w⟩ := m
    unfold lookup at h
    split at h
    · next heq =>
      cases heq
      cases h
      exact List.mem_cons_self
    · exact List.mem_cons_of_mem _ (ih h)

theorem lookup_eq_none_iff : lookup k ms = none ↔ k ∉ keys ms := by
  induction ms with
  | nil => exact iff_of_true rfl List.not_mem_nil
  | cons m ms ih =>
    obtain ⟨k', w⟩ := m
    unfold lookup
    by_cases heq : k' = k
    · rw [if_pos heq]
      exact iff_of_false (Option.some_ne_none w) fun h => h (heq ▸ List.mem_cons_self)
    · rw [if_neg heq, ih, keys, keys, List.map_cons, List.mem_cons, not_or]
      exact (and_iff_right (Ne.symm heq)).symm

theorem mem_keys_of_lookup (h : lookup k ms = some v) : k ∈ keys ms :=
  List.mem_map.mpr ⟨(k, v), mem_of_lookup h, rfl⟩

theorem exists_lookup (h : k ∈ keys ms) : ∃ v, lookup k ms = some v :=
  Option.ne_none_iff_exists'.mp fun hnone => lookup_eq_none_iff.mp hnone h

/-- With distinct keys, a member is found under its key. -/
theorem lookup_of_mem (hms : (keys ms).Nodup) (h : (k, v) ∈ ms) : lookup k ms = some v := by
  induction ms with
  | nil => cases h
  | cons m ms ih =>
    obtain ⟨k', w⟩ := m
    rw [keys, List.map_cons, List.nodup_cons] at hms
    unfold lookup
    rcases List.mem_cons.mp h with heq | hmem
    · cases heq
      rw [if_pos rfl]
    · have hne : k' ≠ k := by
        rintro rfl
        exact hms.1 (List.mem_map.mpr ⟨_, hmem, rfl⟩)
      rw [if_neg hne]
      exact ih hms.2 hmem

/-- **Members are their keys and their values**: with distinct keys, nothing else tells them apart. -/
theorem eq_of_lookup (hkeys : keys ms = keys ps) (hms : (keys ms).Nodup)
    (h : ∀ k ∈ keys ms, lookup k ms = lookup k ps) : ms = ps := by
  induction ms generalizing ps with
  | nil => exact (List.map_eq_nil_iff.mp hkeys.symm).symm
  | cons m ms ih =>
    obtain ⟨k, v⟩ := m
    cases ps with
    | nil => cases hkeys
    | cons p ps =>
      obtain ⟨k', w⟩ := p
      obtain ⟨hk, hrest⟩ := List.cons.inj hkeys
      change k = k' at hk
      subst hk
      rw [keys, List.map_cons, List.nodup_cons] at hms
      have hv : v = w := by
        have hhead := h k List.mem_cons_self
        rw [lookup, lookup, if_pos rfl, if_pos rfl] at hhead
        exact Option.some.inj hhead
      have htail : ms = ps := by
        refine ih hrest hms.2 fun k' hk' => ?_
        have hne : k ≠ k' := by
          rintro rfl
          exact hms.1 hk'
        have hlookup := h k' (List.mem_cons_of_mem _ hk')
        rwa [lookup, lookup, if_neg hne, if_neg hne] at hlookup
      rw [hv, htail]

variable {j : Json}

/-- What is read under a key, as a member. -/
theorem get_eq (j : Json) (k : CString) : j.get k = (lookup k j.members).getD null := by rw [get, getEx_eq]

theorem get_eq_null_of_none (h : j.getEx k = none) : j.get k = null := by
  rw [get, h, Option.getD_none]

/-- A key that is read as NULL is absent or null. -/
theorem lookup_of_get_eq_null (h : j.get k = null) :
    lookup k j.members = none ∨ lookup k j.members = some null := by
  rw [get_eq] at h
  cases hk : lookup k j.members with
  | none => exact .inl rfl
  | some v =>
    rw [hk, Option.getD_some] at h
    exact .inr (h ▸ rfl)

theorem lookup_of_get_ne_null (h : j.get k ≠ null) : lookup k j.members = some (j.get k) := by
  rw [get_eq] at h ⊢
  cases hk : lookup k j.members with
  | none => exact absurd (by rw [hk, Option.getD_none]) h
  | some v => rw [Option.getD_some]

/-! ## Adding members -/

theorem set_of_not_mem (h : k ∉ keys ms) : set k v ms = ms ++ [(k, v)] := by
  induction ms with
  | nil => rfl
  | cons m ms ih =>
    obtain ⟨k', w⟩ := m
    rw [keys, List.map_cons, List.mem_cons, not_or] at h
    rw [set, if_neg (Ne.symm h.1), ih h.2, List.cons_append]

/-- A member that is there is replaced where it stands. -/
theorem set_append_cons (h : k ∉ keys ms) (v w : Json) (ps : List (CString × Json)) :
    set k w (ms ++ (k, v) :: ps) = ms ++ (k, w) :: ps := by
  induction ms with
  | nil => rw [List.nil_append, set, if_pos rfl, List.nil_append]
  | cons m ms ih =>
    obtain ⟨k', u⟩ := m
    rw [keys, List.map_cons, List.mem_cons, not_or] at h
    rw [List.cons_append, set, if_neg (Ne.symm h.1), ih h.2, List.cons_append]

theorem keys_set_of_mem (h : k ∈ keys ms) : keys (set k v ms) = keys ms := by
  induction ms with
  | nil => cases h
  | cons m ms ih =>
    obtain ⟨k', w⟩ := m
    unfold set
    split
    · rfl
    · next hne =>
      rcases List.mem_cons.mp h with heq | hmem
      · exact absurd heq.symm hne
      · exact congrArg (k' :: ·) (ih hmem)

/-- Adding a member keeps the keys where they are. -/
theorem prefix_keys_set (k : CString) (v : Json) (ms : List (CString × Json)) : keys ms <+: keys (set k v ms) := by
  by_cases hk : k ∈ keys ms
  · rw [keys_set_of_mem hk]
  · rw [set_of_not_mem hk]
    exact ⟨[k], (keys_append ms [(k, v)]).symm⟩

theorem nodup_set (h : (keys ms).Nodup) : (keys (set k v ms)).Nodup := by
  by_cases hk : k ∈ keys ms
  · rwa [keys_set_of_mem hk]
  · rw [set_of_not_mem hk, keys_append, List.nodup_append]
    refine ⟨h, List.nodup_singleton _, fun a ha b hb => ?_⟩
    rw [List.mem_singleton.mp hb]
    rintro rfl
    exact hk ha

/-- Members added one after the other. -/
def setAll (ps ms : List (CString × Json)) : List (CString × Json) := ps.foldl (fun ms p => set p.1 p.2 ms) ms

/-- **Members added one after the other** come before those that were there. -/
theorem lookup_setAll (hps : (keys ps).Nodup) (ms : List (CString × Json)) (k : CString) :
    lookup k (setAll ps ms) = (lookup k ps).or (lookup k ms) := by
  unfold setAll
  induction ps generalizing ms with
  | nil => rfl
  | cons p ps ih =>
    obtain ⟨key, v⟩ := p
    rw [keys, List.map_cons, List.nodup_cons] at hps
    rw [List.foldl_cons, ih hps.2, lookup_set, lookup]
    by_cases heq : key = k
    · have hnone : lookup k ps = none := lookup_eq_none_iff.mpr (heq ▸ hps.1)
      rw [if_pos heq, if_pos heq, hnone, Option.none_or, Option.some_or]
    · rw [if_neg heq, if_neg heq]

/-! ## Every depth -/

/-- Is it an object? -/
def IsObj (j : Json) : Prop := ∃ ms, j = obj ms

theorem not_isObj_null : ¬ IsObj null := nofun

/-- **A property of every value**: it holds of what is no object, and of an object if it holds of its members. -/
theorem members_induction {P : Json → Prop} (value : ∀ j, ¬ IsObj j → P j)
    (object : ∀ ms, (∀ k v, (k, v) ∈ ms → P v) → P (obj ms)) : ∀ j, P j
  | obj ms => object ms fun k v hmem =>
      have hpair : sizeOf v < sizeOf (k, v) := by rw [Prod.mk.sizeOf_spec]; omega
      have : sizeOf v < sizeOf ms := hpair.trans (List.sizeOf_lt_of_mem hmem)
      members_induction value object v
  | null => value _ nofun
  | bool _ => value _ nofun
  | int _ => value _ nofun
  | double _ _ => value _ nofun
  | str _ => value _ nofun
  | arr _ => value _ nofun

/-- **No object has a key twice**, at any depth of objects. -/
inductive Distinct : Json → Prop
  | value {j : Json} : ¬ IsObj j → Distinct j
  | object {ms : List (CString × Json)} : (keys ms).Nodup → (∀ k v, lookup k ms = some v → Distinct v) →
      Distinct (obj ms)

/-- An object of scalars. -/
theorem Distinct.flat (hms : (keys ms).Nodup) (h : ∀ m ∈ ms, ¬ IsObj m.2) : Distinct (obj ms) :=
  .object hms fun k v hk => .value (h (k, v) (mem_of_lookup hk))

theorem Distinct.nodup (h : Distinct (obj ms)) : (keys ms).Nodup := by
  cases h with
  | value hno => exact absurd ⟨ms, rfl⟩ hno
  | object hkeys _ => exact hkeys

theorem Distinct.of_lookup (h : Distinct (obj ms)) (hk : lookup k ms = some v) : Distinct v := by
  cases h with
  | value hno => exact absurd ⟨ms, rfl⟩ hno
  | object _ hmembers => exact hmembers k v hk

theorem Distinct.members {j : Json} (h : Distinct j) : (keys j.members).Nodup := by
  cases j with
  | obj ms => exact h.nodup
  | _ => exact List.nodup_nil

theorem Distinct.get {j : Json} (h : Distinct j) (k : CString) : Distinct (j.get k) := by
  cases j with
  | obj ms =>
    unfold Json.get
    rw [getEx_obj]
    cases hk : lookup k ms with
    | none => exact .value nofun
    | some v => exact h.of_lookup hk
  | _ => exact .value nofun

/-! ## Merge patches -/

/-- **The result is the target merged with the patch**, as RFC 7386 has it. -/
inductive MergePatched : Json → Json → Json → Prop
  | value {target patch : Json} : ¬ IsObj patch → MergePatched target patch patch
  | object {target : Json} {ps rs : List (CString × Json)}
      (kept : ∀ k, lookup k ps = none → lookup k rs = target.getEx k)
      (deleted : ∀ k, lookup k ps = some null → lookup k rs = none)
      (added : ∀ k v, lookup k ps = some v → v ≠ null → ∃ r, lookup k rs = some r)
      (merged : ∀ k v r, lookup k ps = some v → v ≠ null → lookup k rs = some r →
        MergePatched (target.get k) v r) :
      MergePatched target (obj ps) (obj rs)

/-- What a patch that is an object leaves. -/
theorem MergePatched.of_obj {target result : Json} (h : MergePatched target (obj ps) result) :
    ∃ rs, result = obj rs ∧ (∀ k, lookup k ps = none → lookup k rs = target.getEx k) ∧
      (∀ k, lookup k ps = some null → lookup k rs = none) ∧
      ∀ k v r, lookup k ps = some v → v ≠ null → lookup k rs = some r → MergePatched (target.get k) v r := by
  cases h with
  | value hno => exact absurd ⟨ps, rfl⟩ hno
  | object kept deleted _ merged => exact ⟨_, rfl, kept, deleted, merged⟩

/-- The members without a key (`json_object_object_del`). -/
def without (key : CString) (ms : List (CString × Json)) : List (CString × Json) := ms.filter fun m => m.1 ≠ key

theorem lookup_without (key k : CString) (ms : List (CString × Json)) :
    lookup k (without key ms) = if k = key then none else lookup k ms := by
  induction ms with
  | nil => exact (ite_self none).symm
  | cons m ms ih =>
    obtain ⟨k', w⟩ := m
    unfold without at ih ⊢
    rw [List.filter_cons]
    by_cases hk' : k' = key
    · rw [if_neg (by simpa using hk'), ih, lookup]
      split
      · rfl
      · next hne => rw [if_neg fun heq => hne (heq.symm.trans hk')]
    · rw [if_pos (by simpa using hk'), lookup, lookup, ih]
      by_cases heq : k' = k
      · rw [if_pos heq, if_pos heq, if_neg fun h => hk' (heq.trans h)]
      · rw [if_neg heq, if_neg heq]

mutual

/-- The algorithm of RFC 7386. -/
def rfc7386 (target : Json) : Json → Json
  | obj ps => obj (rfc7386Members target ps target.members)
  | patch => patch

/-- Its loop over the members of the patch. -/
def rfc7386Members (target : Json) :
    List (CString × Json) → List (CString × Json) → List (CString × Json)
  | [], ms => ms
  | (k, null) :: ps, ms => rfc7386Members target ps (without k ms)
  | (k, v) :: ps, ms => rfc7386Members target ps (set k (rfc7386 (target.get k) v) ms)

end

/-- A step of the loop for a member that is not null. -/
theorem rfc7386Members_cons {target : Json} (hv : v ≠ null) :
    rfc7386Members target ((k, v) :: ps) ms =
      rfc7386Members target ps (set k (rfc7386 (target.get k) v) ms) := by
  rw [rfc7386Members]
  exact hv

/-- **The loop**: what it leaves under each key. -/
theorem lookup_rfc7386Members (target : Json) (hps : (keys ps).Nodup) (ms : List (CString × Json)) (k : CString) :
    lookup k (rfc7386Members target ps ms) =
      match lookup k ps with
      | none => lookup k ms
      | some null => none
      | some v => some (rfc7386 (target.get k) v) := by
  induction ps generalizing ms with
  | nil => rfl
  | cons p ps ih =>
    obtain ⟨key, v⟩ := p
    rw [keys, List.map_cons, List.nodup_cons] at hps
    by_cases hv : v = null
    · subst hv
      rw [rfc7386Members, ih hps.2, lookup]
      by_cases heq : key = k
      · have hnone : lookup k ps = none := lookup_eq_none_iff.mpr (heq ▸ hps.1)
        rw [if_pos heq, hnone, lookup_without, if_pos heq.symm]
      · rw [if_neg heq]
        split
        · rw [lookup_without, if_neg (Ne.symm heq)]
        · rfl
        · rfl
    · rw [rfc7386Members_cons hv, ih hps.2, lookup]
      by_cases heq : key = k
      · have hnone : lookup k ps = none := lookup_eq_none_iff.mpr (heq ▸ hps.1)
        rw [if_pos heq, hnone, heq, lookup_set_self]
        cases v with
        | null => exact absurd rfl hv
        | _ => rfl
      · rw [if_neg heq, lookup_set_ne heq]

/-- **The algorithm merges.** -/
theorem mergePatched_rfc7386 {patch : Json} (target : Json) (h : Distinct patch) :
    MergePatched target patch (rfc7386 target patch) := by
  induction h generalizing target with
  | @value j hj =>
    cases j with
    | obj ms => exact absurd ⟨ms, rfl⟩ hj
    | _ => exact .value hj
  | @object ps hkeys hmembers ih =>
    have hlookup := lookup_rfc7386Members target hkeys target.members
    refine .object (fun k hk => ?_) (fun k hk => ?_) (fun k v hk hv => ?_) (fun k v r hk hv hr => ?_)
    · rw [hlookup, hk, getEx_eq]
    · rw [hlookup, hk]
    · rw [hlookup, hk]
      cases v with
      | null => exact absurd rfl hv
      | _ => exact ⟨_, rfl⟩
    · rw [hlookup, hk] at hr
      cases v with
      | null => exact absurd rfl hv
      | _ =>
        cases hr
        exact ih k _ hk _

end Json
