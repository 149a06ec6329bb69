import Sirah.ApiServer.ThreeWayMerge

/-!
# Applying twice

`kubectl_apply_three_way_merge` once more on its own result. The annotation that the first apply leaves is what the
second one takes for the last applied configuration, so the second merge has `desired` on both sides of the object
it left.

* `Extends desired x`: an object that has the keys of `desired` first, in their order, and its values. A merge leaves
  one (`extends_of_merge`), and to merge `desired` into it again changes nothing (`mergeValue_again_of_extends`).
* `putAt`: the annotation goes to the end of a path. `mergeValue_again_of_put`: after it, a merge changes at most
  what is there.
* **`idempotent_iff`**: an apply is idempotent **iff** the shapes fit and `desired` has no object for the annotation.
* `apply_to_number_undefined`: where an object is desired and a number is there, the first apply does not return.
-/

namespace Sirah.ApiServer

open Json

variable {last current d r x v : Json} {ds cs ms rs fs xs ys : List (CString × Json)} {k : CString}
  {path : List CString}

/-! ## A value at the end of a path -/

/-- A value at the end of a path, with new objects where there are none. -/
def putAt (v : Json) : List CString → Json → Option Json
  | [], _ => some v
  | k :: path, j => do
    let child ← putAt v path (orNew (j.get k))
    j.add k child

/-- Where the annotations are. -/
def annotationPath : List CString := ["metadata", "annotations"]

theorem kubectlApplySetLastApplied_eq (j : Json) (s : CString) :
    kubectlApplySetLastApplied j s = putAt (.str s) (annotationPath ++ [lastAppliedAnnotationKey]) j := by
  simp only [kubectlApplySetLastApplied, annotationPath, List.cons_append, List.nil_append, putAt, Option.bind_eq_bind,
    Option.bind_some, Option.bind_assoc]

/-- What is put behind a key, and where. -/
theorem putAt_cons {j : Json} (h : putAt v (k :: path) j = some x) :
    ∃ ms child, j = obj ms ∧ putAt v path (orNew (j.get k)) = some child ∧ x = obj (set k child ms) := by
  obtain ⟨child, hchild, hadd⟩ := Option.bind_eq_some_iff.mp h
  cases j with
  | obj ms => exact ⟨ms, child, rfl, hchild, (Option.some.inj hadd).symm⟩
  | _ => cases hadd

theorem orNew_of_ne_null {j : Json} (h : j ≠ .null) : orNew j = j := by
  cases j with
  | null => exact absurd rfl h
  | _ => rfl

theorem putAt_orNew {j : Json} (h : putAt v path j = some x) : putAt v path (orNew j) = some x := by
  cases path with
  | nil => exact h
  | cons k path =>
    obtain ⟨ms, -, rfl, -⟩ := putAt_cons h
    exact h

/-- What is put is there. -/
theorem get_putAt {j : Json} (h : putAt v path j = some x) : path.foldl Json.get x = v := by
  induction path generalizing j x with
  | nil => exact (Option.some.inj h).symm
  | cons k path ih =>
    obtain ⟨ms, child, -, hchild, rfl⟩ := putAt_cons h
    rw [List.foldl_cons, get_of_lookup (lookup_set_self k child ms)]
    exact ih hchild

/-- Putting it there again changes nothing. -/
theorem putAt_again {j : Json} (h : putAt v path j = some x) : putAt v path x = some x := by
  induction path generalizing j x with
  | nil => exact h
  | cons k path ih =>
    obtain ⟨ms, child, -, hchild, rfl⟩ := putAt_cons h
    rw [putAt, get_of_lookup (lookup_set_self k child ms), putAt_orNew (ih hchild)]
    exact congrArg (fun ms => some (obj ms)) (set_set k child child ms)

/-! ## Keys of a merge -/

theorem keepCurrent_append (last d : Json) (as bs result : List (CString × Json)) :
    keepCurrent last d (as ++ bs) result = keepCurrent last d bs (keepCurrent last d as result) := by
  induction as generalizing result with
  | nil => rfl
  | cons a as ih =>
    obtain ⟨key, value⟩ := a
    rw [List.cons_append]
    by_cases hkept : d.get key = .null ∧ last.get key = .null
    · rw [keepCurrent_kept hkept.1 hkept.2, keepCurrent_kept hkept.1 hkept.2, ih]
    · rw [keepCurrent_dropped hkept, keepCurrent_dropped hkept, ih]

/-- The second walk adds keys at the end, and none twice. -/
theorem keys_keepCurrent (last d : Json) (cs result : List (CString × Json)) :
    keys result <+: keys (keepCurrent last d cs result) ∧
      ((keys result).Nodup → (keys (keepCurrent last d cs result)).Nodup) := by
  induction cs generalizing result with
  | nil => exact ⟨List.prefix_refl _, id⟩
  | cons c cs ih =>
    obtain ⟨key, value⟩ := c
    by_cases hkept : d.get key = .null ∧ last.get key = .null
    · rw [keepCurrent_kept hkept.1 hkept.2]
      have hrest := ih (set key value result)
      exact ⟨(prefix_keys_set key value result).trans hrest.1, fun h => hrest.2 (nodup_set h)⟩
    · rw [keepCurrent_dropped hkept]
      exact ih result

/-- Keys that are there stay where they are. -/
theorem keys_keepCurrent_of_mem {result : List (CString × Json)} (h : ∀ k ∈ keys cs, k ∈ keys result) :
    keys (keepCurrent last d cs result) = keys result := by
  induction cs generalizing result with
  | nil => rfl
  | cons c cs ih =>
    obtain ⟨key, value⟩ := c
    have hrest : ∀ k ∈ keys cs, k ∈ keys result := fun k hk => h k (List.mem_cons_of_mem _ hk)
    by_cases hkept : d.get key = .null ∧ last.get key = .null
    · have hset := keys_set_of_mem (v := value) (h key List.mem_cons_self)
      rw [keepCurrent_kept hkept.1 hkept.2, ih (hset ▸ hrest), hset]
    · rw [keepCurrent_dropped hkept, ih hrest]

/-- Keys that are new come at the end. -/
theorem keys_keepCurrent_of_new {result : List (CString × Json)}
    (h : ∀ k ∈ keys cs, d.get k = .null ∧ last.get k = .null) (hnodup : (keys result ++ keys cs).Nodup) :
    keys (keepCurrent last d cs result) = keys result ++ keys cs := by
  induction cs generalizing result with
  | nil => exact (List.append_nil _).symm
  | cons c cs ih =>
    obtain ⟨key, value⟩ := c
    have hkept := h key List.mem_cons_self
    have hnew : key ∉ keys result := fun hmem =>
      (List.nodup_append.mp hnodup).2.2 _ hmem _ List.mem_cons_self rfl
    have hset : keys (set key value result) = keys result ++ [key] := by
      rw [set_of_not_mem hnew, keys_append]
      rfl
    have hsplit : keys result ++ keys ((key, value) :: cs) = keys (set key value result) ++ keys cs := by
      rw [hset, List.append_assoc]
      rfl
    rw [keepCurrent_kept hkept.1 hkept.2, hsplit]
    exact ih (fun k hk => h k (List.mem_cons_of_mem _ hk)) (hsplit ▸ hnodup)

/-! ## Merging again -/

/-- **`x` has what is desired**, at every depth: its keys first and in their order, and its values. A null that is
desired asks for nothing. -/
inductive Extends : Json → Json → Prop
  | value {desired : Json} : ¬ IsObj desired → Extends desired desired
  | null {x : Json} : Extends .null x
  | object {ds xs : List (CString × Json)} (nodup : (keys xs).Nodup) (first : keys ds <+: keys xs)
      (deeper : ∀ k d x, lookup k ds = some d → lookup k xs = some x → Extends d x) :
      Extends (obj ds) (obj xs)

theorem Extends.of_obj (h : Extends (obj ds) x) :
    ∃ xs, x = obj xs ∧ (keys xs).Nodup ∧ keys ds <+: keys xs ∧
      ∀ k d x, lookup k ds = some d → lookup k xs = some x → Extends d x := by
  cases h with
  | value hno => exact absurd ⟨ds, rfl⟩ hno
  | object nodup first deeper => exact ⟨_, rfl, nodup, first, deeper⟩

/-- What has something that is desired and not null is not null. -/
theorem Extends.ne_null (h : Extends d x) (hd : d ≠ .null) : x ≠ .null := by
  cases h with
  | value => exact hd
  | null => exact absurd rfl hd
  | object => exact nofun

/-- **A merge has what is desired.** -/
theorem extends_of_merge (hd : Distinct d) (h : mergeValue last current d = some r) : Extends d r := by
  induction hd generalizing last current r with
  | @value d hno =>
    rw [mergeValue_of_not_obj hno] at h
    cases h
    exact .value hno
  | @object ds hds _ ih =>
    obtain ⟨-, fs, hfs, rfl⟩ := (mergeValue_obj_iff hds).mp h
    obtain ⟨hkeys, -, hsome⟩ := lookup_mergedMembers hfs
    have hwalk := keys_keepCurrent last (obj ds) current.members fs
    refine .object (hwalk.2 (hkeys ▸ hds)) (hkeys ▸ hwalk.1) fun k d x hk hx => ?_
    obtain ⟨m, hm, hl⟩ := hsome k d hk
    by_cases hnull : d = .null
    · exact hnull ▸ .null
    · rw [lookup_keepCurrent_dropped fun h => hnull ((get_of_lookup hk).symm.trans h.1), hl] at hx
      cases hx
      exact ih k d hk hm

/-- The keys of `desired` come first: the others are new. -/
theorem keys_keepCurrent_again (hfirst : keys ds <+: keys xs) (hxs : (keys xs).Nodup) (hfs : keys fs = keys ds) :
    keys (keepCurrent (obj ds) (obj ds) xs fs) = keys xs := by
  obtain ⟨rest, hrest⟩ := hfirst
  obtain ⟨as, bs, rfl, has, hbs⟩ := List.map_eq_append_iff.mp hrest.symm
  change keys as = keys ds at has
  rw [keys_append, has] at hxs
  have hhead : keys (keepCurrent (obj ds) (obj ds) as fs) = keys ds :=
    (keys_keepCurrent_of_mem fun k hk => hfs ▸ has ▸ hk).trans hfs
  have hnew : ∀ k ∈ keys bs, (obj ds).get k = .null ∧ (obj ds).get k = .null := by
    intro k hk
    have hnone : lookup k ds = none :=
      lookup_eq_none_iff.mpr fun hmem => (List.nodup_append.mp hxs).2.2 k hmem k hk rfl
    have hget : (obj ds).get k = .null := get_eq_null_of_none hnone
    exact ⟨hget, hget⟩
  rw [keepCurrent_append, keys_keepCurrent_of_new hnew (hhead ▸ hxs), hhead, keys_append, has]

/-- **A merge with `desired` as what was applied last**, of one object: what it makes of the values that are desired
comes in their place, and nothing else changes. -/
theorem mergeValue_again (hds : (keys ds).Nodup) (hxs : (keys xs).Nodup) (hfirst : keys ds <+: keys xs)
    (hkeys : keys ys = keys xs)
    (hdesired : ∀ k d, lookup k ds = some d → d ≠ .null →
      ∃ x y, lookup k xs = some x ∧ lookup k ys = some y ∧ mergeValue d x d = some y)
    (hother : ∀ k, (obj ds).get k = .null → lookup k ys = lookup k xs) :
    mergeValue (obj ds) (obj xs) (obj ds) = some (obj ys) := by
  have hdefined : ∃ fs, mergedMembers (obj ds) (obj xs) ds = some fs := by
    refine mergedMembers_defined fun k d hmem => ?_
    have hk := lookup_of_mem hds hmem
    rw [get_of_lookup hk]
    by_cases hnull : d = .null
    · exact ⟨d, mergeValue_of_not_obj (hnull ▸ not_isObj_null)⟩
    · obtain ⟨x, y, hx, -, hy⟩ := hdesired k d hk hnull
      exact ⟨y, by rw [get_of_lookup hx, hy]⟩
  obtain ⟨fs, hfs⟩ := hdefined
  obtain ⟨hfskeys, hnone, hsome⟩ := lookup_mergedMembers hfs
  have hwalk := keys_keepCurrent_again hfirst hxs hfskeys
  refine (mergeValue_obj_iff hds).mpr ⟨.inr ⟨xs, rfl⟩, fs, hfs, congrArg obj ?_⟩
  refine eq_of_lookup (hkeys.trans hwalk.symm) (hkeys ▸ hxs) fun k hk => ?_
  change lookup k ys = lookup k (keepCurrent (obj ds) (obj ds) xs fs)
  by_cases hget : (obj ds).get k = .null
  · rw [lookup_keepCurrent hxs hget hget, hother k hget]
    obtain ⟨x, hx⟩ := exists_lookup (hkeys ▸ hk)
    rw [hx, Option.some_or]
  · have hd : lookup k ds = some ((obj ds).get k) := lookup_of_get_ne_null hget
    obtain ⟨x, y, hx, hy, hmerge⟩ := hdesired k _ hd hget
    obtain ⟨m, hm, hl⟩ := hsome k _ hd
    rw [get_of_lookup hx, hmerge] at hm
    cases hm
    rw [lookup_keepCurrent_dropped fun h => hget h.1, hl, hy]

/-- **To merge `desired` again into what has it changes nothing.** -/
theorem mergeValue_again_of_extends (hd : Distinct d) (h : Extends d x) (hne : d ≠ .null) :
    mergeValue d x d = some x := by
  induction hd generalizing x with
  | @value d hno =>
    cases h with
    | value => exact mergeValue_of_not_obj hno
    | null => exact absurd rfl hne
    | object => exact absurd ⟨_, rfl⟩ hno
  | @object ds hds _ ih =>
    obtain ⟨xs, rfl, hxs, hfirst, hdeeper⟩ := h.of_obj
    refine mergeValue_again hds hxs hfirst rfl (fun k d hk hd => ?_) fun _ _ => rfl
    obtain ⟨x, hx⟩ := exists_lookup (hfirst.subset (mem_keys_of_lookup hk))
    exact ⟨x, x, hx, hx, ih k d hk (hdeeper k d x hk hx) hd⟩

/-! ## Merging again after the annotation -/

/-- Along the path there are objects, where there is anything. -/
def ObjectsAlong : List CString → Json → Prop
  | [], j => IsObj j
  | k :: path, j => ∃ ms, j = obj ms ∧ ∀ v, lookup k ms = some v → ObjectsAlong path v

/-- Along the path there are objects, where there is anything, and at its end is none. -/
def Clear : List CString → Json → Prop
  | [], j => ¬ IsObj j
  | k :: path, j => ∃ ms, j = obj ms ∧ ∀ v, lookup k ms = some v → Clear path v

theorem ObjectsAlong.ne_null {j : Json} (h : ObjectsAlong path j) : j ≠ .null := by
  cases path with
  | nil =>
    obtain ⟨ms, rfl⟩ := h
    exact nofun
  | cons k path =>
    obtain ⟨ms, rfl, -⟩ := h
    exact nofun

/-- **With the annotation put into what a merge left**, the next merge changes at most the annotation. -/
theorem mergeValue_again_of_put (hclear : Clear path d) (hd : Distinct d) (hext : Extends d r)
    (hput : putAt v path r = some x) : ∃ y, mergeValue d x d = some y ∧ putAt v path y = some x := by
  induction path generalizing d r x with
  | nil => exact ⟨d, mergeValue_of_not_obj hclear, hput⟩
  | cons k path ih =>
    obtain ⟨ds, rfl, hclear⟩ := hclear
    obtain ⟨rs, rfl, hrs, hfirst, hdeeper⟩ := hext.of_obj
    obtain ⟨ms, child, hms, hchild, rfl⟩ := putAt_cons hput
    cases hms
    have hset : (keys (set k child rs)).Nodup := nodup_set hrs
    have hprefix : keys ds <+: keys (set k child rs) := hfirst.trans (prefix_keys_set k child rs)
    -- the members beside the path have what is desired
    have hbeside : ∀ k' d, lookup k' ds = some d → d ≠ .null → k ≠ k' →
        ∃ x, lookup k' rs = some x ∧ mergeValue d x d = some x := by
      intro k' d hk' hne _
      obtain ⟨x, hx⟩ := exists_lookup (hfirst.subset (mem_keys_of_lookup hk'))
      exact ⟨x, hx, mergeValue_again_of_extends (hd.of_lookup hk') (hdeeper k' d x hk' hx) hne⟩
    by_cases hget : (obj ds).get k = .null
    · refine ⟨_, mergeValue_again hd.nodup hset hprefix rfl (fun k' d hk' hne => ?_) fun _ _ => rfl, putAt_again hput⟩
      have hkk : k ≠ k' := by
        rintro rfl
        exact hne ((get_of_lookup hk').symm.trans hget)
      obtain ⟨x, hx, hmerge⟩ := hbeside k' d hk' hne hkk
      have hlookup := (lookup_set_ne hkk child rs).trans hx
      exact ⟨x, x, hlookup, hlookup, hmerge⟩
    · have he : lookup k ds = some ((obj ds).get k) := lookup_of_get_ne_null hget
      obtain ⟨rk, hrk⟩ := exists_lookup (hfirst.subset (mem_keys_of_lookup he))
      have hextk := hdeeper k _ rk he hrk
      rw [get_of_lookup hrk, orNew_of_ne_null (hextk.ne_null hget)] at hchild
      obtain ⟨yk, hyk, hputk⟩ := ih (hclear _ he) (hd.of_lookup he) hextk hchild
      have hmem : k ∈ keys rs := mem_keys_of_lookup hrk
      have hkeys : keys (set k yk rs) = keys (set k child rs) := by
        rw [keys_set_of_mem hmem, keys_set_of_mem hmem]
      refine ⟨obj (set k yk rs), mergeValue_again hd.nodup hset hprefix hkeys (fun k' d hk' hne => ?_) fun k' hk' => ?_,
        ?_⟩
      · by_cases hkk : k = k'
        · subst hkk
          rw [he] at hk'
          cases hk'
          exact ⟨child, yk, lookup_set_self k child rs, lookup_set_self k yk rs, hyk⟩
        · obtain ⟨x, hx, hmerge⟩ := hbeside k' d hk' hne hkk
          exact ⟨x, x, (lookup_set_ne hkk child rs).trans hx, (lookup_set_ne hkk yk rs).trans hx, hmerge⟩
      · have hkk : k ≠ k' := by
          rintro rfl
          exact hget hk'
        rw [lookup_set_ne hkk, lookup_set_ne hkk]
      · rw [putAt, get_of_lookup (lookup_set_self k yk rs), putAt_orNew hputk]
        exact congrArg (fun ms => some (obj ms)) (set_set k yk child rs)

/-- A merge has objects along a path where its two sides have. -/
theorem objectsAlong_of_merge (h : mergeValue last current d = some r) (hd : Distinct d) (hcurrent : Distinct current)
    (hdesired : ObjectsAlong path d) (hthere : current = .null ∨ ObjectsAlong path current) : ObjectsAlong path r := by
  induction path generalizing last current d r with
  | nil =>
    obtain ⟨ds, rfl⟩ := hdesired
    obtain ⟨-, fs, -, rfl⟩ := (mergeValue_obj_iff hd.nodup).mp h
    exact ⟨_, rfl⟩
  | cons k path ih =>
    obtain ⟨ds, rfl, hds⟩ := hdesired
    obtain ⟨-, fs, hfs, rfl⟩ := (mergeValue_obj_iff hd.nodup).mp h
    obtain ⟨-, hnone, hsome⟩ := lookup_mergedMembers hfs
    have hcur : ∀ v, lookup k current.members = some v → ObjectsAlong path v := by
      intro v hv
      rcases hthere with rfl | ⟨cs, rfl, hcs⟩
      · cases hv
      · exact hcs v hv
    refine ⟨_, rfl, fun v hv => ?_⟩
    cases hk : lookup k ds with
    | none =>
      have hget : (obj ds).get k = .null := get_eq_null_of_none hk
      by_cases hlast : last.get k = .null
      · rw [lookup_keepCurrent hcurrent.members hget hlast, hnone k hk, Option.or_none] at hv
        exact hcur v hv
      · rw [lookup_keepCurrent_dropped fun h => hlast h.2, hnone k hk] at hv
        cases hv
    | some e =>
      have hget : (obj ds).get k ≠ .null := get_of_lookup hk ▸ (hds e hk).ne_null
      obtain ⟨m, hm, hl⟩ := hsome k e hk
      rw [lookup_keepCurrent_dropped fun h => hget h.1, hl] at hv
      cases hv
      refine ih hm (hd.of_lookup hk) (hcurrent.get k) (hds e hk) ?_
      by_cases hnull : current.get k = .null
      · exact .inl hnull
      · exact .inr (hcur _ (lookup_of_get_ne_null hnull))

/-- Behind objects along a path there is room. -/
theorem putAt_defined {j : Json} (h : ObjectsAlong path j) (v : Json) (k : CString) :
    ∃ x, putAt v (path ++ [k]) j = some x := by
  induction path generalizing j with
  | nil =>
    obtain ⟨ms, rfl⟩ := h
    exact ⟨_, rfl⟩
  | cons key path ih =>
    obtain ⟨ms, rfl, hms⟩ := h
    have hnext : ObjectsAlong path (orNew ((obj ms).get key)) := by
      cases hk : lookup key ms with
      | none =>
        have hget : (obj ms).get key = .null := get_eq_null_of_none hk
        rw [hget]
        cases path with
        | nil => exact ⟨[], rfl⟩
        | cons => exact ⟨[], rfl, nofun⟩
      | some v =>
        rw [get_of_lookup hk, orNew_of_ne_null (hms v hk).ne_null]
        exact hms v hk
    obtain ⟨child, hchild⟩ := ih hnext
    exact ⟨obj (set key child ms), by rw [List.cons_append, putAt, hchild]; rfl⟩

/-! ## Idempotence -/

/-- **An apply is idempotent**: applied to its own result, it yields the same object again. -/
def Idempotent (json : JsonC) (current desired : Json) : Prop :=
  ∃ first second, kubectlApplyThreeWayMerge json current desired = some first ∧ first.success = true ∧
    kubectlApplyThreeWayMerge json first.resultObj desired = some second ∧ second.success = true ∧
    second.resultObj = first.resultObj

/-- What an object has for the annotation. -/
def annotationOf (j : Json) : Json := ((j.get "metadata").get "annotations").get lastAppliedAnnotationKey

/-- The metadata and the annotations are objects where there are any. -/
def WellFormed (j : Json) : Prop := ObjectsAlong annotationPath j

theorem clear_of_not_isObj {j : Json} (hj : WellFormed j) (hno : ¬ IsObj (annotationOf j)) :
    Clear (annotationPath ++ [lastAppliedAnnotationKey]) j := by
  obtain ⟨ms, rfl, hms⟩ := hj
  refine ⟨ms, rfl, fun metadata hmetadata => ?_⟩
  obtain ⟨mm, rfl, hmm⟩ := hms metadata hmetadata
  refine ⟨mm, rfl, fun annotations hannotations => ?_⟩
  obtain ⟨as, rfl⟩ := hmm annotations hannotations
  refine ⟨as, rfl, fun v hv => ?_⟩
  rwa [annotationOf, get_of_lookup hmetadata, get_of_lookup hannotations, get_of_lookup hv] at hno

/-- An apply to an object is a merge, and the annotation after it. -/
theorem apply_eq_some_iff {json : JsonC} {result : ApplyResult} (hds : (keys ds).Nodup) :
    kubectlApplyThreeWayMerge json (obj cs) (obj ds) = some result ↔
      ∃ r x, mergeValue (kubectlApplyGetLastApplied json (obj cs)) (obj cs) (obj ds) = some r ∧
        putAt (.str (json.render (obj ds))) (annotationPath ++ [lastAppliedAnnotationKey]) r = some x ∧
        result = ⟨true, 200, x, []⟩ := by
  unfold kubectlApplyThreeWayMerge
  simp only [kubectlApplyDetermineMode, jsonMergeRecursive, Option.bind_eq_bind]
  cases hr : mergeValue (kubectlApplyGetLastApplied json (obj cs)) (obj cs) (obj ds) with
  | none =>
    refine iff_of_false (Option.some_ne_none result).symm ?_
    rintro ⟨r, x, hr, -⟩
    cases hr
  | some r =>
    obtain ⟨-, fs, -, rfl⟩ := (mergeValue_obj_iff hds).mp hr
    simp only [Option.bind_some, kubectlApplySetLastApplied_eq]
    constructor
    · intro h
      obtain ⟨x, hx, hresult⟩ := Option.bind_eq_some_iff.mp h
      exact ⟨_, x, rfl, hx, (Option.some.inj hresult).symm⟩
    · rintro ⟨r, x, hr, hx, rfl⟩
      cases hr
      rw [hx]
      rfl

/-- What was applied is read back from the annotation. -/
theorem lastApplied_of_put {json : JsonC} {j : Json} {s : CString}
    (h : putAt (.str s) (annotationPath ++ [lastAppliedAnnotationKey]) j = some x) :
    kubectlApplyGetLastApplied json x = json.parse s := by
  have hget : annotationOf x = .str s := get_putAt h
  unfold annotationOf at hget
  unfold kubectlApplyGetLastApplied
  simp only [hget, getString]

theorem Fits.get (h : Fits current d) (hobj : IsObj (d.get k)) : Fits (current.get k) (d.get k) := by
  have hne : d.get k ≠ .null := fun hnull => not_isObj_null (hnull ▸ hobj)
  have hk := lookup_of_get_ne_null hne
  cases d with
  | obj ds => exact h.of_lookup hk
  | _ => cases hk

/-- A text does not fit an annotation that is desired to be an object. -/
theorem not_fits_of_isObj {s : CString} (hx : annotationOf x = .str s) (hd : IsObj (annotationOf d)) : ¬ Fits x d := by
  intro h
  have hannotations : IsObj ((d.get "metadata").get "annotations") := by
    have hne : annotationOf d ≠ .null := fun hnull => not_isObj_null (hnull ▸ hd)
    obtain ⟨ms, hms, -⟩ := exists_of_get_ne_null hne
    exact ⟨ms, hms⟩
  have hmetadata : IsObj (d.get "metadata") := by
    have hne : (d.get "metadata").get "annotations" ≠ .null := fun hnull => not_isObj_null (hnull ▸ hannotations)
    obtain ⟨ms, hms, -⟩ := exists_of_get_ne_null hne
    exact ⟨ms, hms⟩
  have hfits : Fits (annotationOf x) (annotationOf d) := ((h.get hmetadata).get hannotations).get hd
  obtain ⟨ms, hms⟩ := hd
  rw [hx, hms] at hfits
  exact hfits.walkable.elim nofun fun ⟨_, h⟩ => by cases h

/-- **An apply is idempotent, exactly** if the shapes fit and the annotation is not desired to be an object. -/
theorem idempotent_iff (json : JsonC) (hcs : Distinct (obj cs)) (hds : Distinct (obj ds))
    (hround : json.parse (json.render (obj ds)) = obj ds) (hcurrent : WellFormed (obj cs))
    (hdesired : WellFormed (obj ds)) :
    Idempotent json (obj cs) (obj ds) ↔ Fits (obj cs) (obj ds) ∧ ¬ IsObj (annotationOf (obj ds)) := by
  constructor
  · rintro ⟨first, second, hfirst, -, hsecond, -, -⟩
    obtain ⟨r, x, hr, hx, rfl⟩ := (apply_eq_some_iff hds.nodup).mp hfirst
    refine ⟨(mergeValue_defined_iff hds).mp ⟨r, hr⟩, fun hobj => ?_⟩
    obtain ⟨ms, child, -, -, rfl⟩ := putAt_cons hx
    obtain ⟨r', -, hr', -, -⟩ := (apply_eq_some_iff hds.nodup).mp hsecond
    exact not_fits_of_isObj (get_putAt hx) hobj ((mergeValue_defined_iff hds).mp ⟨r', hr'⟩)
  · rintro ⟨hfits, hno⟩
    obtain ⟨r, hr⟩ := (mergeValue_defined_iff hds).mpr hfits
    obtain ⟨x, hx⟩ := putAt_defined (objectsAlong_of_merge hr hds hcs hdesired (.inr hcurrent))
      (.str (json.render (obj ds))) lastAppliedAnnotationKey
    obtain ⟨y, hy, hput⟩ := mergeValue_again_of_put (clear_of_not_isObj hdesired hno) hds (extends_of_merge hds hr) hx
    obtain ⟨ms, child, -, -, rfl⟩ := putAt_cons hx
    refine ⟨⟨true, 200, _, []⟩, ⟨true, 200, _, []⟩, (apply_eq_some_iff hds.nodup).mpr ⟨r, _, hr, hx, rfl⟩, rfl,
      (apply_eq_some_iff hds.nodup).mpr ⟨y, _, ?_, hput, rfl⟩, rfl, rfl⟩
    rw [lastApplied_of_put hx, hround, hy]

/-! ## A spec, and a number in its place -/

/-- What is applied: a spec without members. -/
def emptySpec : List (CString × Json) := [("spec", .obj [])]

def emptySpecText : CString := "\x7b \"spec\": \x7b \x7d \x7d"

/-- json-c on this object and its text. -/
def specJson : JsonC where
  parse text := if text = emptySpecText then obj emptySpec else .null
  render _ := emptySpecText

theorem distinct_empty : Distinct (obj []) := .flat List.nodup_nil nofun

theorem distinct_spec {v : Json} (hv : Distinct v) : Distinct (obj [("spec", v)]) := by
  refine .object (List.nodup_singleton _) fun k w hk => ?_
  obtain ⟨rfl, rfl⟩ := Prod.mk.inj (List.mem_singleton.mp (mem_of_lookup hk))
  exact hv

/-- Without metadata nothing is in the way. -/
theorem wellFormed_spec {v : Json} : WellFormed (obj [("spec", v)]) :=
  ⟨_, rfl, fun w hw => absurd (mem_keys_of_lookup hw) (by decide : ("metadata" : CString) ∉ [("spec" : CString)])⟩

theorem idempotent_replicas : Idempotent specJson (obj [("spec", .obj [("replicas", .int 3)])]) (obj emptySpec) := by
  have hreplicas : Distinct (obj [("replicas", .int 3)]) := .flat (by decide) (by simp [IsObj])
  have hnone : ¬ IsObj (annotationOf (obj emptySpec)) := not_isObj_null
  refine (idempotent_iff specJson (distinct_spec hreplicas) (distinct_spec distinct_empty) rfl wellFormed_spec
    wellFormed_spec).mpr ⟨.object (.inr ⟨_, rfl⟩) fun k d hk => ?_, hnone⟩
  obtain ⟨rfl, rfl⟩ := Prod.mk.inj (List.mem_singleton.mp (mem_of_lookup hk))
  refine .object (.inr ⟨_, rfl⟩) fun k d hk => ?_
  cases hk

/-- **The first apply does not return** where an object is desired and there is a number. -/
theorem apply_to_number_undefined : ¬ ∀ (json : JsonC) (cs ds : List (CString × Json)), Distinct (obj cs) →
    Distinct (obj ds) → json.parse (json.render (obj ds)) = obj ds → WellFormed (obj cs) → WellFormed (obj ds) →
      Idempotent json (obj cs) (obj ds) := by
  intro h
  obtain ⟨first, -, hfirst, -⟩ := h specJson [("spec", .int 1)] emptySpec (distinct_spec (.value nofun))
    (distinct_spec distinct_empty) rfl wellFormed_spec wellFormed_spec
  obtain ⟨r, -, hr, -⟩ := (apply_eq_some_iff (by decide)).mp hfirst
  have hfits := (mergeValue_defined_iff (distinct_spec distinct_empty)).mp ⟨r, hr⟩
  have hspec : Fits (.int 1) (.obj []) := hfits.of_lookup (k := "spec") rfl
  exact hspec.walkable.elim nofun fun ⟨_, h⟩ => by cases h

end Sirah.ApiServer
