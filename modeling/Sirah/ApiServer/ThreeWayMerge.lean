import Sirah.ApiServer.KubectlApply
import Sirah.Lib.JsonTree

/-!
# What the three-way merge computes

`json_merge_recursive` of `kubectl_apply.c` at every depth: its two walks as what they leave under each key, and
the law of a three-way merge.

* `Merged last current desired result`: the law. What is desired is there, merged where it is an object; what only
  `current` has stays; what was applied last and is not desired any more goes; and there is nothing else.
* `Fits current desired`: where an object is desired, `current` has an object or nothing.
* `Unambiguous last current desired`: no null stands where the accessor takes it for an absent key.
* `mergeValue_defined_iff`: the merge is defined **iff** the shapes fit.
* **`threeWayMerge_law_iff`**: it is defined and the law holds **iff**, besides, the nulls are unambiguous.
* `desired_null_is_lost`: a null that is desired does not replace a value.
-/

namespace Sirah.ApiServer

open Json

variable {last current d r : Json} {ds cs ms rs fs : List (CString × Json)} {k : CString}

/-! ## The first walk -/

/-- The members of `desired`, each one merged. -/
def mergedMembers (last current : Json) : List (CString × Json) → Option (List (CString × Json))
  | [] => some []
  | (key, value) :: members => do
    let merged ← mergeValue (last.get key) (current.get key) value
    let rest ← mergedMembers last current members
    return (key, merged) :: rest

/-- **The first walk** merges each member where it stands, the ones before it being done. -/
theorem mergeMembers_append {done : List (CString × Json)} (h : (keys (done ++ ms)).Nodup) :
    mergeMembers last current ms (done ++ ms) = (mergedMembers last current ms).map (done ++ ·) := by
  induction ms generalizing done with
  | nil => rw [mergeMembers, mergedMembers, Option.map_some]
  | cons m ms ih =>
    obtain ⟨key, value⟩ := m
    rw [mergeMembers, mergedMembers]
    cases mergeValue (last.get key) (current.get key) value with
    | none => rfl
    | some merged =>
      have hkey : key ∉ keys done := by
        rw [keys, List.map_append, List.nodup_append] at h
        exact fun hmem => h.2.2 _ hmem _ List.mem_cons_self rfl
      have hnext : (keys (done ++ [(key, merged)] ++ ms)).Nodup := by
        rw [List.append_assoc]
        rw [keys, List.map_append] at h ⊢
        exact h
      have hrest := ih hnext
      rw [List.append_assoc, List.singleton_append] at hrest
      simp only [Option.bind_eq_bind, Option.bind_some]
      rw [set_append_cons hkey, hrest]
      cases mergedMembers last current ms with
      | none => rfl
      | some rest => exact congrArg some (List.append_assoc done [(key, merged)] rest)

theorem mergeMembers_eq (h : (keys ds).Nodup) :
    mergeMembers last current ds ds = mergedMembers last current ds := by
  have happend : mergeMembers last current ds ([] ++ ds) = (mergedMembers last current ds).map ([] ++ ·) :=
    mergeMembers_append h
  rw [List.nil_append] at happend
  rw [happend]
  exact Option.map_id'

/-- What the first walk leaves under each key. -/
theorem lookup_mergedMembers (h : mergedMembers last current ms = some fs) :
    keys fs = keys ms ∧ (∀ k, lookup k ms = none → lookup k fs = none) ∧
      ∀ k d, lookup k ms = some d →
        ∃ m, mergeValue (last.get k) (current.get k) d = some m ∧ lookup k fs = some m := by
  induction ms generalizing fs with
  | nil =>
    cases h
    exact ⟨rfl, fun _ h => h, nofun⟩
  | cons m ms ih =>
    obtain ⟨key, value⟩ := m
    rw [mergedMembers] at h
    obtain ⟨merged, hmerged, h⟩ := Option.bind_eq_some_iff.mp h
    obtain ⟨rest, hrest, h⟩ := Option.bind_eq_some_iff.mp h
    cases h
    obtain ⟨hkeys, hnone, hsome⟩ := ih hrest
    refine ⟨congrArg (key :: ·) hkeys, fun k hk => ?_, fun k d hk => ?_⟩
    · rw [lookup] at hk ⊢
      split at hk
      · cases hk
      · next hne => rw [if_neg hne, hnone k hk]
    · rw [lookup] at hk
      split at hk
      · next heq =>
        cases hk
        subst heq
        exact ⟨merged, hmerged, by rw [lookup, if_pos rfl]⟩
      · next hne =>
        obtain ⟨m, hm, hl⟩ := hsome k d hk
        exact ⟨m, hm, by rw [lookup, if_neg hne, hl]⟩

theorem mergedMembers_defined (h : ∀ k d, (k, d) ∈ ms → ∃ m, mergeValue (last.get k) (current.get k) d = some m) :
    ∃ fs, mergedMembers last current ms = some fs := by
  induction ms with
  | nil => exact ⟨[], rfl⟩
  | cons m ms ih =>
    obtain ⟨key, value⟩ := m
    obtain ⟨merged, hmerged⟩ := h key value List.mem_cons_self
    obtain ⟨rest, hrest⟩ := ih fun k d hmem => h k d (List.mem_cons_of_mem _ hmem)
    exact ⟨(key, merged) :: rest, by rw [mergedMembers, hmerged, hrest]; rfl⟩

/-! ## The second walk -/

theorem keepCurrent_kept {value : Json} {result : List (CString × Json)} (hd : d.get k = .null)
    (hlast : last.get k = .null) :
    keepCurrent last d ((k, value) :: cs) result = keepCurrent last d cs (set k value result) := by
  rw [keepCurrent, hd, hlast]

theorem keepCurrent_dropped {value : Json} {result : List (CString × Json)}
    (h : ¬ (d.get k = .null ∧ last.get k = .null)) :
    keepCurrent last d ((k, value) :: cs) result = keepCurrent last d cs result := by
  rw [keepCurrent]
  split
  · next hd hlast => exact absurd ⟨hd, hlast⟩ h
  · rfl

/-- **A key that the second walk keeps**: the value of `current` comes first. -/
theorem lookup_keepCurrent (hcs : (keys cs).Nodup) (hd : d.get k = .null) (hlast : last.get k = .null)
    (result : List (CString × Json)) :
    lookup k (keepCurrent last d cs result) = (lookup k cs).or (lookup k result) := by
  induction cs generalizing result with
  | nil => rfl
  | cons c cs ih =>
    obtain ⟨key, value⟩ := c
    rw [keys, List.map_cons, List.nodup_cons] at hcs
    rw [lookup]
    by_cases heq : key = k
    · subst heq
      have hnone : lookup key cs = none := lookup_eq_none_iff.mpr hcs.1
      rw [keepCurrent_kept hd hlast, ih hcs.2, hnone, Option.none_or, lookup_set_self, if_pos rfl, Option.some_or]
    · rw [if_neg heq]
      by_cases hkept : d.get key = .null ∧ last.get key = .null
      · rw [keepCurrent_kept hkept.1 hkept.2, ih hcs.2, lookup_set_ne heq]
      · rw [keepCurrent_dropped hkept, ih hcs.2]

/-- **A key that it does not keep** has what the first walk left. -/
theorem lookup_keepCurrent_dropped (h : ¬ (d.get k = .null ∧ last.get k = .null))
    (result : List (CString × Json)) : lookup k (keepCurrent last d cs result) = lookup k result := by
  induction cs generalizing result with
  | nil => rfl
  | cons c cs ih =>
    obtain ⟨key, value⟩ := c
    by_cases hkept : d.get key = .null ∧ last.get key = .null
    · have hne : key ≠ k := by
        rintro rfl
        exact h hkept
      rw [keepCurrent_kept hkept.1 hkept.2, ih, lookup_set_ne hne]
    · rw [keepCurrent_dropped hkept, ih]

/-! ## The merge of one object -/

/-- NULL or an object: what json-c's iterator is not called on, or can walk. -/
def Walkable (j : Json) : Prop := j = .null ∨ IsObj j

/-- **The merge of an object**: both walks. -/
theorem mergeValue_obj_iff (hds : (keys ds).Nodup) :
    mergeValue last current (obj ds) = some r ↔
      Walkable current ∧ ∃ fs, mergedMembers last current ds = some fs ∧
        r = obj (keepCurrent last (obj ds) current.members fs) := by
  rw [mergeValue, mergeMembers_eq hds]
  cases hfirst : mergedMembers last current ds with
  | none =>
    refine iff_of_false (Option.some_ne_none r).symm ?_
    rintro ⟨-, fs, h, -⟩
    cases h
  | some fs =>
    cases current with
    | null =>
      refine ⟨fun h => ⟨.inl rfl, fs, rfl, (Option.some.inj h).symm⟩, ?_⟩
      rintro ⟨-, _, hfs, rfl⟩
      cases hfs
      rfl
    | obj cs =>
      refine ⟨fun h => ⟨.inr ⟨cs, rfl⟩, fs, rfl, (Option.some.inj h).symm⟩, ?_⟩
      rintro ⟨-, _, hfs, rfl⟩
      cases hfs
      rfl
    | _ =>
      refine iff_of_false (Option.some_ne_none r).symm ?_
      rintro ⟨hnull | ⟨cs, hobj⟩, -⟩
      · cases hnull
      · cases hobj

theorem mergeValue_of_not_obj (h : ¬ IsObj d) : mergeValue last current d = some d := by
  cases d with
  | obj ms => exact absurd ⟨ms, rfl⟩ h
  | _ =>
    rw [mergeValue]
    intro ms hms
    cases hms

/-! ## Where it is defined -/

/-- **The shapes fit**: where an object is desired, `current` has an object or nothing. -/
inductive Fits : Json → Json → Prop
  | value {current desired : Json} : ¬ IsObj desired → Fits current desired
  | object {current : Json} {ds : List (CString × Json)} (here : Walkable current)
      (deeper : ∀ k d, lookup k ds = some d → Fits (current.get k) d) : Fits current (obj ds)

theorem Fits.walkable (h : Fits current (obj ds)) : Walkable current := by
  cases h with
  | value hno => exact absurd ⟨ds, rfl⟩ hno
  | object here _ => exact here

theorem Fits.of_lookup (h : Fits current (obj ds)) (hk : lookup k ds = some d) : Fits (current.get k) d := by
  cases h with
  | value hno => exact absurd ⟨ds, rfl⟩ hno
  | object _ deeper => exact deeper k d hk

/-- **The merge is defined, exactly** where the shapes fit. -/
theorem mergeValue_defined_iff (hd : Distinct d) : (∃ r, mergeValue last current d = some r) ↔ Fits current d := by
  induction hd generalizing last current with
  | @value d hno => exact iff_of_true ⟨d, mergeValue_of_not_obj hno⟩ (.value hno)
  | @object ds hds _ ih =>
    constructor
    · rintro ⟨r, h⟩
      obtain ⟨hhere, fs, hfs, -⟩ := (mergeValue_obj_iff hds).mp h
      refine .object hhere fun k d hk => ?_
      obtain ⟨m, hm, -⟩ := (lookup_mergedMembers hfs).2.2 k d hk
      exact (ih k d hk).mp ⟨m, hm⟩
    · intro h
      have hdefined : ∃ fs, mergedMembers last current ds = some fs := mergedMembers_defined fun k d hmem =>
        (ih k d (lookup_of_mem hds hmem)).mpr (h.of_lookup (lookup_of_mem hds hmem))
      obtain ⟨fs, hfs⟩ := hdefined
      exact ⟨_, (mergeValue_obj_iff hds).mpr ⟨h.walkable, fs, hfs, rfl⟩⟩

/-! ## The law -/

/-- **The law of a three-way merge.** -/
inductive Merged : Json → Json → Json → Json → Prop
  | value {last current desired : Json} : ¬ IsObj desired → Merged last current desired desired
  | object {last current : Json} {ds rs : List (CString × Json)}
      (desired : ∀ k d, lookup k ds = some d → ∃ r, lookup k rs = some r)
      (merged : ∀ k d r, lookup k ds = some d → lookup k rs = some r →
        Merged (last.get k) (current.get k) d r)
      (kept : ∀ k, lookup k ds = none → last.getEx k = none → lookup k rs = current.getEx k)
      (removed : ∀ k, lookup k ds = none → last.getEx k ≠ none → lookup k rs = none) :
      Merged last current (obj ds) (obj rs)

theorem Merged.eq_of_not_obj (h : Merged last current d r) (hd : ¬ IsObj d) : r = d := by
  cases h with
  | value => rfl
  | object => exact absurd ⟨_, rfl⟩ hd

theorem Merged.of_obj (h : Merged last current (obj ds) r) :
    ∃ rs, r = obj rs ∧
      (∀ k d r, lookup k ds = some d → lookup k rs = some r → Merged (last.get k) (current.get k) d r) ∧
      ∀ k, lookup k ds = none → last.getEx k ≠ none → lookup k rs = none := by
  cases h with
  | value hno => exact absurd ⟨ds, rfl⟩ hno
  | object _ merged _ removed => exact ⟨_, rfl, merged, removed⟩

/-- **No null is ambiguous**: one that is desired does not meet a value that would be kept, and one that was applied
last is not taken for an absent key. -/
inductive Unambiguous : Json → Json → Json → Prop
  | value {last current desired : Json} : ¬ IsObj desired → Unambiguous last current desired
  | object {last current : Json} {ds : List (CString × Json)}
      (desired : ∀ k, lookup k ds = some .null → current.get k ≠ .null → last.get k ≠ .null)
      (applied : ∀ k, lookup k ds = none → last.getEx k = some .null → current.getEx k = none)
      (deeper : ∀ k d, lookup k ds = some d → Unambiguous (last.get k) (current.get k) d) :
      Unambiguous last current (obj ds)

/-- **A merge obeys the law, exactly** where no null is ambiguous. -/
theorem merged_iff (hd : Distinct d) (hcurrent : Distinct current) (h : mergeValue last current d = some r) :
    Merged last current d r ↔ Unambiguous last current d := by
  induction hd generalizing last current r with
  | @value d hno =>
    rw [mergeValue_of_not_obj hno] at h
    cases h
    exact iff_of_true (.value hno) (.value hno)
  | @object ds hds _ ih =>
    obtain ⟨-, fs, hfs, rfl⟩ := (mergeValue_obj_iff hds).mp h
    obtain ⟨-, hnone, hsome⟩ := lookup_mergedMembers hfs
    -- what the result has under a key that the second walk keeps, and under any other
    have hkept : ∀ k, (obj ds).get k = .null → last.get k = .null →
        lookup k (keepCurrent last (obj ds) current.members fs) = (lookup k current.members).or (lookup k fs) :=
      fun k hk hlast => lookup_keepCurrent hcurrent.members hk hlast fs
    have hdropped : ∀ k, ¬ ((obj ds).get k = .null ∧ last.get k = .null) →
        lookup k (keepCurrent last (obj ds) current.members fs) = lookup k fs :=
      fun k hk => lookup_keepCurrent_dropped hk fs
    constructor
    · intro hlaw
      obtain ⟨rs, hrs, merged, removed⟩ := hlaw.of_obj
      cases hrs
      refine .object (fun k hk hcur hlast => ?_) (fun k hk hlast => ?_) fun k d hk => ?_
      · -- the value of `current` is in the place of the null
        have hr := (hkept k (get_of_lookup hk) hlast).trans (by rw [lookup_of_get_ne_null hcur, Option.some_or])
        exact hcur ((merged k .null _ hk hr).eq_of_not_obj not_isObj_null)
      · have hgone := removed k hk (by rw [hlast]; exact nofun)
        have hnull : last.get k = .null := by rw [Json.get, hlast, Option.getD_some]
        rw [hkept k (get_eq_null_of_none hk) hnull, hnone k hk, Option.or_none] at hgone
        rw [getEx_eq, hgone]
      · by_cases hobj : IsObj d
        · obtain ⟨m, hm, hl⟩ := hsome k d hk
          have hr := (hdropped k fun hboth => not_isObj_null (hboth.1 ▸ get_of_lookup hk ▸ hobj)).trans hl
          exact (ih k d hk (hcurrent.get k) hm).mp (merged k d m hk hr)
        · exact .value hobj
    · intro hclear
      cases hclear with
      | value hno => exact absurd ⟨ds, rfl⟩ hno
      | object desired applied deeper =>
        refine .object (fun k d hk => ?_) (fun k d r hk hr => ?_) (fun k hk hlast => ?_) (fun k hk hlast => ?_)
        · obtain ⟨m, -, hl⟩ := hsome k d hk
          by_cases hboth : (obj ds).get k = .null ∧ last.get k = .null
          · rw [hkept k hboth.1 hboth.2, hl]
            cases lookup k current.members with
            | none => exact ⟨m, rfl⟩
            | some v => exact ⟨v, rfl⟩
          · exact ⟨m, (hdropped k hboth).trans hl⟩
        · obtain ⟨m, hm, hl⟩ := hsome k d hk
          by_cases hboth : (obj ds).get k = .null ∧ last.get k = .null
          · -- a null that is desired: `current` has none in its place
            obtain rfl : d = .null := (get_of_lookup hk).symm.trans hboth.1
            rw [mergeValue_of_not_obj not_isObj_null] at hm
            cases hm
            have hcur : current.get k = .null := by
              by_contra hne
              exact desired k hk hne hboth.2
            rw [hkept k hboth.1 hboth.2, hl] at hr
            have hr : r = .null := by
              rcases lookup_of_get_eq_null hcur with hc | hc
              · rw [hc, Option.none_or] at hr
                exact (Option.some.inj hr).symm
              · rw [hc, Option.some_or] at hr
                exact (Option.some.inj hr).symm
            rw [hr]
            exact .value not_isObj_null
          · rw [hdropped k hboth, hl] at hr
            cases hr
            exact (ih k d hk (hcurrent.get k) hm).mpr (deeper k d hk)
        · rw [hkept k (get_eq_null_of_none hk) (get_eq_null_of_none hlast), hnone k hk, Option.or_none, getEx_eq]
        · by_cases hnull : last.get k = .null
          · have hcur : current.getEx k = none := by
              refine applied k hk ?_
              rw [getEx_eq] at hlast ⊢
              exact (lookup_of_get_eq_null hnull).resolve_left hlast
            rw [hkept k (get_eq_null_of_none hk) hnull, hnone k hk, Option.or_none, ← getEx_eq, hcur]
          · rw [hdropped k fun hboth => hnull hboth.2, hnone k hk]

/-- **The merge is what it is for, exactly** where the shapes fit and the nulls are unambiguous. -/
theorem threeWayMerge_law_iff (last : Json) (hcs : Distinct (obj cs)) (hds : Distinct (obj ds)) :
    (∃ r, jsonMergeRecursive last (obj cs) (obj ds) = some r ∧ Merged last (obj cs) (obj ds) r) ↔
      Fits (obj cs) (obj ds) ∧ Unambiguous last (obj cs) (obj ds) := by
  change (∃ r, mergeValue last (obj cs) (obj ds) = some r ∧ _) ↔ _
  constructor
  · rintro ⟨r, hr, hlaw⟩
    exact ⟨(mergeValue_defined_iff hds).mp ⟨r, hr⟩, (merged_iff hds hcs hr).mp hlaw⟩
  · rintro ⟨hfits, hclear⟩
    obtain ⟨r, hr⟩ : ∃ r, mergeValue last (obj cs) (obj ds) = some r := (mergeValue_defined_iff hds).mpr hfits
    exact ⟨r, hr, (merged_iff hds hcs hr).mpr hclear⟩

/-! ## A change of one field, and a null -/

/-- `a` was applied, and `b`; somebody else added `c`. -/
def grown : List (CString × Json) := [("a", .int 1), ("b", .int 1), ("c", .int 2)]

def applied : Json := .obj [("a", .int 1), ("b", .int 1)]

theorem threeWayMerge_law_grown :
    ∃ r, jsonMergeRecursive applied (obj grown) (obj [("a", .int 2)]) = some r ∧
      Merged applied (obj grown) (obj [("a", .int 2)]) r := by
  have hgrown : Distinct (obj grown) := .flat (by decide) (by simp [grown, IsObj])
  have hdesired : Distinct (obj [("a", .int 2)]) := .flat (by decide) (by simp [IsObj])
  refine (threeWayMerge_law_iff applied hgrown hdesired).mpr ⟨?_, ?_⟩
  · refine .object (.inr ⟨_, rfl⟩) fun k d hk => ?_
    obtain ⟨rfl, rfl⟩ := Prod.mk.inj (List.mem_singleton.mp (mem_of_lookup hk))
    exact .value nofun
  · refine .object (fun k hk => ?_) (fun k _ hk => ?_) fun k d hk => ?_
    · simpa using mem_of_lookup hk
    · simpa using mem_of_lookup hk
    · obtain ⟨rfl, rfl⟩ := Prod.mk.inj (List.mem_singleton.mp (mem_of_lookup hk))
      exact .value nofun

/-- **A null that is desired is lost** to the value it was to replace. -/
theorem desired_null_is_lost : ¬ ∀ ls cs ds : List (CString × Json),
    Distinct (obj ls) → Distinct (obj cs) → Distinct (obj ds) →
      ∃ r, jsonMergeRecursive (obj ls) (obj cs) (obj ds) = some r ∧ Merged (obj ls) (obj cs) (obj ds) r := by
  intro h
  obtain ⟨r, hr, hlaw⟩ := h [] [("a", .int 1)] [("a", .null)] (.flat (by decide) nofun)
    (.flat (by decide) (by simp [IsObj])) (.flat (by decide) (by simp [IsObj]))
  have hvalue : jsonMergeRecursive (obj []) (obj [("a", .int 1)]) (obj [("a", .null)]) = some (obj [("a", .int 1)]) := by
    simp [jsonMergeRecursive, mergeValue, mergeMembers, keepCurrent, Json.get, getEx, lookup, Json.set]
  rw [hvalue] at hr
  cases hr
  obtain ⟨rs, hrs, merged, -⟩ := hlaw.of_obj
  cases hrs
  cases (merged "a" _ _ rfl rfl).eq_of_not_obj not_isObj_null

end Sirah.ApiServer
