import Sirah.Lib.Words
import Sirah.StatefulSet.StatefulSet

/-!
# The names of volume claims

Model of `statefulset_generate_pvc_name` and `statefulset_create_pvcs_for_ordinal`: the claim of a pod is named after
its template, its set (twice) and its ordinal, joined by `-` and cut to 255 bytes. The parts may hold `-` themselves.

* `Cut`: the difference of two texts lies behind the cut.
* `Overlap`: the set's name twice can also be read as a longer name twice. `c`, `r` and `k` give all the ways.
* **`generatePvcName_ne_iff`**: two different claims have different names **iff** neither is the case.
* `createPvcsForOrdinal_disjoint`: then the pods share no claim.
* `volume_of_another_set`: template `d-a-a` of set `a`, and template `d` of set `a-a`.
-/

namespace Sirah.Stateful

open Words

/-- `statefulset_generate_pvc_name`. -/
def generatePvcName (statefulsetName templateName : CString) (ordinal : Int) : Except Int CString :=
  if ordinal < 0 then .error (-1)
  else .ok (CString.snprintf 256 (templateName ++ CString.ofString "-" ++ statefulsetName ++ CString.ofString "-" ++
    statefulsetName ++ CString.ofString "-" ++ CString.ofNat ordinal.toNat))

/-- The names that `statefulset_create_pvcs_for_ordinal` records for the pod. -/
def createPvcsForOrdinal (spec : Spec) (ordinal : Nat) : List (Except Int CString) :=
  spec.volumeTemplates.map fun template => generatePvcName spec.name template ordinal

/-- What a claim is for. -/
structure Claim where
  template : CString
  set : CString
  ordinal : Nat
  deriving DecidableEq

namespace Claim

/-- `-`. -/
def dash : UInt8 := 45

/-- A byte of a name: lower-case letter, digit or `-`. -/
def NameByte (c : UInt8) : Prop := 97 ≤ c ∧ c ≤ 122 ∨ 48 ≤ c ∧ c ≤ 57 ∨ c = dash

instance (c : UInt8) : Decidable (NameByte c) := inferInstanceAs (Decidable (_ ∨ _))

/-- The set and its template are of an accepted specification. -/
structure Valid (x : Claim) : Prop where
  template : ∀ c ∈ x.template, NameByte c
  set : ∀ c ∈ x.set, NameByte c
  accepted : ∃ spec : Spec, spec.name = x.set ∧ x.template ∈ spec.volumeTemplates ∧
    StatefulSet.validateSpec spec = none
  ordinal : x.ordinal < 1000

/-- The name of the claim. -/
def name (x : Claim) : Except Int CString := generatePvcName x.set x.template x.ordinal

/-- The name before it is cut. -/
def text (x : Claim) : CString :=
  x.template ++ dash :: x.set ++ dash :: x.set ++ dash :: CString.ofNat x.ordinal

/-- **Cut**: a text is too long for the buffer, and the texts agree as far as the buffer goes. -/
def Cut (x y : Claim) : Prop :=
  (255 < x.text.length ∨ 255 < y.text.length) ∧ x.text.take 255 = y.text.take 255

/-- **Overlap**: with the `-` before it, the name of `x`'s set is a tail of a power of the word `c ++ r`, the name of
`y`'s set has this word before that, and `x`'s template goes on where `y`'s ends. -/
def Overlap (x y : Claim) : Prop :=
  x.ordinal = y.ordinal ∧ ∃ c r k, dash :: x.set = r ++ pow (c ++ r) k ∧ dash :: y.set = c ++ r ++ dash :: x.set ∧
    x.template = y.template ++ c ++ r ++ r ++ c

variable {x y : Claim}

theorem name_eq (x : Claim) : x.name = .ok (x.text.take 255) := by
  have hpos : ¬ (x.ordinal : Int) < 0 := by omega
  have hdash : CString.ofString "-" = [dash] := rfl
  simp [name, generatePvcName, hpos, hdash, text, CString.snprintf]

theorem dash_notMem_ofNat (n : Nat) : dash ∉ CString.ofNat n := by
  intro h
  have hdigit := (CString.mem_ofNat h).1
  exact absurd hdigit (by decide)

/-- The last `-` stands before the ordinal. -/
theorem text_eq_iff : x.text = y.text ↔ x.ordinal = y.ordinal ∧
    x.template ++ dash :: x.set ++ dash :: x.set = y.template ++ dash :: y.set ++ dash :: y.set := by
  have hlast : ∀ z : Claim, CString.strchr dash z.text.reverse =
      some ((CString.ofNat z.ordinal).reverse, (z.template ++ dash :: z.set ++ dash :: z.set).reverse) := by
    intro z
    have hno : dash ∉ (CString.ofNat z.ordinal).reverse := by
      rw [List.mem_reverse]
      exact dash_notMem_ofNat z.ordinal
    rw [text, List.reverse_append, List.reverse_cons, List.append_assoc, List.singleton_append,
      CString.strchr_append hno]
  constructor
  · intro h
    have hparts := (hlast x).symm.trans ((congrArg (fun u => CString.strchr dash u.reverse) h).trans (hlast y))
    rw [Option.some.injEq, Prod.mk.injEq, List.reverse_inj, List.reverse_inj] at hparts
    exact ⟨CString.ofNat_inj hparts.1, hparts.2⟩
  · rintro ⟨hordinal, hwords⟩
    rw [text, text, hwords, hordinal]

/-- Claims of different sets with one text overlap. -/
theorem overlap_iff (hlt : x.set.length < y.set.length) : x.text = y.text ↔ Overlap x y := by
  rw [text_eq_iff, Overlap, square_eq_iff (by simpa using hlt)]

theorem Overlap.text_eq (h : Overlap x y) : x.text = y.text := by
  refine (overlap_iff ?_).mpr h
  obtain ⟨-, c, r, k, hx, hy, -⟩ := h
  have hlen := congrArg List.length hy
  simp only [List.length_cons, List.length_append] at hlen
  -- a word without letters has no `-`
  have hpos : 0 < c.length + r.length := by
    rw [← List.length_append]
    refine List.length_pos_of_ne_nil fun hnil => ?_
    rw [hnil, (List.append_eq_nil_iff.mp hnil).2] at hx
    simp [pow] at hx
  omega

theorem text_eq_iff_overlap (hne : x ≠ y) : x.text = y.text ↔ Overlap x y ∨ Overlap y x := by
  constructor
  · intro h
    rcases Nat.lt_trichotomy x.set.length y.set.length with hlt | heq | hlt
    · exact .inl ((overlap_iff hlt).mp h)
    · -- names of one length are equal, and so is the rest
      obtain ⟨hordinal, hwords⟩ := text_eq_iff.mp h
      obtain ⟨hrest, hset⟩ := List.append_inj' hwords (by simp [heq])
      obtain ⟨htemplate, -⟩ := List.append_inj' hrest (by simp [heq])
      refine absurd ?_ hne
      cases x
      cases y
      simp_all
    · exact .inr ((overlap_iff hlt).mp h.symm)
  · rintro (h | h)
    · exact h.text_eq
    · exact h.text_eq.symm

theorem name_eq_iff (hne : x ≠ y) : x.name = y.name ↔ Cut x y ∨ Overlap x y ∨ Overlap y x := by
  rw [name_eq, name_eq, Except.ok.injEq, ← text_eq_iff_overlap hne]
  constructor
  · intro h
    by_cases hlong : 255 < x.text.length ∨ 255 < y.text.length
    · exact .inl ⟨hlong, h⟩
    · rw [List.take_of_length_le (by omega), List.take_of_length_le (by omega)] at h
      exact .inr h
  · rintro (h | h)
    · exact h.2
    · rw [h]

/-- **Different claims have different names, exactly** when the difference is not cut off and the texts do not
overlap. -/
theorem generatePvcName_ne_iff (hne : x ≠ y) :
    generatePvcName x.set x.template x.ordinal ≠ generatePvcName y.set y.template y.ordinal ↔
      ¬ Cut x y ∧ ¬ Overlap x y ∧ ¬ Overlap y x := by
  rw [← not_or, ← not_or]
  exact not_congr (name_eq_iff hne)

theorem ordinals_apart : generatePvcName "web" "data" 0 ≠ generatePvcName "web" "data" 1 := by
  have hne : (⟨"data", "web", 0⟩ : Claim) ≠ ⟨"data", "web", 1⟩ := by decide
  refine (generatePvcName_ne_iff hne).mpr ⟨fun h => ?_, fun h => ?_, fun h => ?_⟩
  · exact absurd h.1 (by decide)
  · exact absurd h.1 (by decide)
  · exact absurd h.1 (by decide)

theorem nameBytes_of_all {s : CString} (h : s.all (fun c => decide (NameByte c)) = true) : ∀ c ∈ s, NameByte c := by
  simpa using h

/-- **One volume for two sets**: claim `d-a-a-a-a-0`. -/
theorem volume_of_another_set :
    ¬ ∀ x y : Claim, x.Valid → y.Valid → x ≠ y →
      generatePvcName x.set x.template x.ordinal ≠ generatePvcName y.set y.template y.ordinal := by
  intro h
  let spec (name template : CString) : Spec := ⟨name, "default", 1, "db", .orderedReady, 30, [template]⟩
  refine h ⟨"d-a-a", "a", 0⟩ ⟨"d", "a-a", 0⟩
    ⟨nameBytes_of_all (by decide), nameBytes_of_all (by decide), ⟨spec "a" "d-a-a", ?_⟩, by decide⟩
    ⟨nameBytes_of_all (by decide), nameBytes_of_all (by decide), ⟨spec "a-a" "d", ?_⟩, by decide⟩ (by decide) ?_
  · exact ⟨rfl, List.mem_singleton_self _, rfl⟩
  · exact ⟨rfl, List.mem_singleton_self _, rfl⟩
  · exact (name_eq_iff (by decide)).mpr (.inr (.inl ⟨rfl, "-a", [], 1, rfl, rfl, rfl⟩))

end Claim

/-- Pods of different sets or ordinals share no claim. -/
theorem createPvcsForOrdinal_disjoint {spec spec' : Spec} {n n' : Nat} (hne : (spec.name, n) ≠ (spec'.name, n'))
    (h : ∀ t ∈ spec.volumeTemplates, ∀ t' ∈ spec'.volumeTemplates,
      ¬ Claim.Cut ⟨t, spec.name, n⟩ ⟨t', spec'.name, n'⟩ ∧ ¬ Claim.Overlap ⟨t, spec.name, n⟩ ⟨t', spec'.name, n'⟩ ∧
        ¬ Claim.Overlap ⟨t', spec'.name, n'⟩ ⟨t, spec.name, n⟩) :
    (createPvcsForOrdinal spec n).Disjoint (createPvcsForOrdinal spec' n') := by
  intro pvc hmem hmem'
  obtain ⟨t, ht, rfl⟩ := List.mem_map.mp hmem
  obtain ⟨t', ht', heq⟩ := List.mem_map.mp hmem'
  have hclaim : (⟨t, spec.name, n⟩ : Claim) ≠ ⟨t', spec'.name, n'⟩ := by
    intro hclaim
    rw [Claim.mk.injEq] at hclaim
    exact hne (Prod.ext hclaim.2.1 hclaim.2.2)
  obtain ⟨hcut, hover, hover'⟩ := h t ht t' ht'
  rcases (Claim.name_eq_iff hclaim).mp heq.symm with hsame | hsame | hsame
  · exact hcut hsame
  · exact hover hsame
  · exact hover' hsame

end Sirah.Stateful
