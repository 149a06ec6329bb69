import Sirah.Lib.CString

/-!
# The grammar of labels

Model of `validate_label` in `internal/apiserver/validation.c`, beside the grammar that its comments give: a key is a name
or `prefix/name`, and a name and a value have the same alphabet and the same ends.

The limit of 63 bytes, which is the name's, is put on the whole key before the prefix is looked for.

* `LabelGrammar`: the grammar.
* `validateLabel_iff`: a label is accepted iff it is in the grammar and its key has at most 63 bytes.
* **`grammar_exact_iff`**: the code and the grammar agree on a label **iff** it is not in the grammar or has such a key.
* `prefixed_refused`: a key in the grammar, with a domain before the name.
-/

namespace Sirah.ApiServer

open CString

/-! ## The code -/

/-- A letter or a digit. -/
def alphanumeric (c : UInt8) : Bool := (97 ≤ c && c ≤ 122) || (65 ≤ c && c ≤ 90) || (48 ≤ c && c ≤ 57)

/-- A letter, a digit, `-`, `_` or `.` -/
def labelByte (c : UInt8) : Bool := alphanumeric c || c = 45 || c = 95 || c = 46

/-- What is checked of the name and of the value: the first byte, the last one, and all. -/
def checkBytes (s : CString) : Bool := s.head?.all alphanumeric && s.getLast?.all alphanumeric && s.all labelByte

/-- The checks of a value that is there and not empty. -/
def checkLabelValue : Option CString → Bool
  | none => true
  | some value => if value.length > 0 then checkBytes value else true

/-- The checks behind the prefix. -/
def checkNameAndValue (name : CString) (value : Option CString) : Bool :=
  if name.length = 0 || name.length > 63 then false
  else if checkBytes name = false then false
  else checkLabelValue value

/-- `validate_label`. -/
def validateLabel (key value : Option CString) : Bool :=
  match key with
  | none => false
  | some key =>
    if key.length = 0 || key.length > 63 then false
    else if value.any fun value => value.length > 63 then false
    else
      match strchr 47 key with
      | some (pre, name) =>
        if pre.length = 0 || pre.length > 253 then false else checkNameAndValue name value
      | none => checkNameAndValue key value

/-! ## The grammar -/

/-- 1 to 63 characters of the alphabet, the first and the last a letter or a digit. -/
structure LabelPart (s : CString) : Prop where
  ne_nil : s ≠ []
  short : s.length ≤ 63
  alphabet : ∀ c ∈ s, labelByte c = true
  first : ∀ c, s.head? = some c → alphanumeric c = true
  last : ∀ c, s.getLast? = some c → alphanumeric c = true

/-- A name, or a prefix of 1 to 253 characters before one. -/
def LabelKey (key : CString) : Prop :=
  LabelPart key ∨
    ∃ pre name, key = pre ++ 47 :: name ∧ 47 ∉ pre ∧ pre ≠ [] ∧ pre.length ≤ 253 ∧ LabelPart name

/-- **The label is in the grammar.** -/
structure LabelGrammar (key value : Option CString) : Prop where
  key : ∃ k, key = some k ∧ LabelKey k
  value : ∀ v, value = some v → v = [] ∨ LabelPart v

variable {s k : CString} {value : Option CString}

/-- What the checks of the bytes are about. -/
theorem checkBytes_iff : checkBytes s = true ↔
    (∀ c, s.head? = some c → alphanumeric c = true) ∧ (∀ c, s.getLast? = some c → alphanumeric c = true) ∧
      ∀ c ∈ s, labelByte c = true := by
  rw [checkBytes, Bool.and_eq_true, Bool.and_eq_true, Option.all_eq_true, Option.all_eq_true, List.all_eq_true, and_assoc]

theorem labelPart_iff : LabelPart s ↔ s ≠ [] ∧ s.length ≤ 63 ∧ checkBytes s = true := by
  rw [checkBytes_iff]
  constructor
  · exact fun h => ⟨h.ne_nil, h.short, h.first, h.last, h.alphabet⟩
  · rintro ⟨hne, hlen, hfirst, hlast, hall⟩
    exact ⟨hne, hlen, hall, hfirst, hlast⟩

/-- A slash is not in the alphabet. -/
theorem LabelPart.slash_notMem (h : LabelPart s) : 47 ∉ s := fun hmem => absurd (h.alphabet 47 hmem) (by decide)

/-- A value that is not too long is right if its bytes are. -/
theorem checkLabelValue_iff (hvalue : ∀ v, value = some v → v.length ≤ 63) :
    checkLabelValue value = true ↔ ∀ v, value = some v → v = [] ∨ LabelPart v := by
  cases value with
  | none => exact iff_of_true rfl fun v h => absurd h (Option.some_ne_none v).symm
  | some v =>
    simp only [Option.some.injEq, forall_eq']
    by_cases hnil : v = []
    · rw [hnil]
      exact iff_of_true rfl (.inl rfl)
    · rw [checkLabelValue, if_pos (List.length_pos_of_ne_nil hnil), labelPart_iff, or_iff_right hnil]
      exact ⟨fun h => ⟨hnil, hvalue v rfl, h⟩, fun h => h.2.2⟩

theorem checkNameAndValue_iff (hvalue : ∀ v, value = some v → v.length ≤ 63) :
    checkNameAndValue s value = true ↔ LabelPart s ∧ ∀ v, value = some v → v = [] ∨ LabelPart v := by
  unfold checkNameAndValue
  rw [labelPart_iff]
  by_cases hlen : s ≠ [] ∧ s.length ≤ 63
  · have hpos := List.length_pos_of_ne_nil hlen.1
    rw [if_neg (by simp only [Bool.or_eq_true, decide_eq_true_eq]; omega)]
    by_cases hcheck : checkBytes s = true
    · rw [if_neg (by rw [hcheck]; decide), checkLabelValue_iff hvalue]
      exact (and_iff_right ⟨hlen.1, hlen.2, hcheck⟩).symm
    · rw [if_pos (eq_false_of_ne_true hcheck)]
      exact iff_of_false (by decide) fun h => hcheck h.1.2.2
  · rw [if_pos]
    · exact iff_of_false (by decide) fun h => hlen ⟨h.1.1, h.1.2.1⟩
    · rw [not_and_or, not_not] at hlen
      rw [Bool.or_eq_true, decide_eq_true_eq, decide_eq_true_eq, List.length_eq_zero_iff]
      exact hlen.imp_right Nat.lt_of_not_le

/-- What is checked of a key, once its length is. -/
theorem labelKey_iff (k : CString) : LabelKey k ↔
    match strchr 47 k with
    | some (pre, name) => pre ≠ [] ∧ pre.length ≤ 253 ∧ LabelPart name
    | none => LabelPart k := by
  cases hslash : strchr 47 k with
  | none =>
    refine ⟨fun h => h.resolve_right ?_, Or.inl⟩
    rintro ⟨pre, name, rfl, -⟩
    exact strchr_eq_none_iff.mp hslash (List.mem_append_right pre List.mem_cons_self)
  | some parts =>
    obtain ⟨pre, name⟩ := parts
    obtain ⟨rfl, hpre⟩ := strchr_eq_some hslash
    constructor
    · rintro (hpart | ⟨pre', name', heq, hpre', hne, hlen, hname⟩)
      · exact absurd (List.mem_append_right pre List.mem_cons_self) hpart.slash_notMem
      · rw [heq, strchr_append hpre'] at hslash
        obtain ⟨rfl, rfl⟩ := Prod.mk.inj (Option.some.inj hslash)
        exact ⟨hne, hlen, hname⟩
    · rintro ⟨hne, hlen, hname⟩
      exact .inr ⟨pre, name, rfl, hpre, hne, hlen, hname⟩

/-- **What is accepted**: the labels of the grammar with a key of at most 63 bytes. -/
theorem validateLabel_iff (key value : Option CString) :
    validateLabel key value = true ↔ LabelGrammar key value ∧ ∀ k, key = some k → k.length ≤ 63 := by
  have hgrammar : LabelGrammar key value ↔
      (∃ k, key = some k ∧ LabelKey k) ∧ ∀ v, value = some v → v = [] ∨ LabelPart v :=
    ⟨fun h => ⟨h.key, h.value⟩, fun h => ⟨h.1, h.2⟩⟩
  rw [hgrammar]
  cases key with
  | none =>
    refine iff_of_false (by rw [validateLabel]; decide) ?_
    rintro ⟨⟨⟨k, hk, -⟩, -⟩, -⟩
    cases hk
  | some k =>
    simp only [Option.some.injEq, exists_eq_left', forall_eq']
    unfold validateLabel
    dsimp only
    by_cases hkey : k.length = 0 ∨ k.length > 63
    · rw [if_pos (by rwa [Bool.or_eq_true, decide_eq_true_eq, decide_eq_true_eq])]
      refine iff_of_false (by decide) ?_
      rintro ⟨⟨hlabel, -⟩, hlen⟩
      have hnil : k = [] := List.length_eq_zero_iff.mp (hkey.resolve_right (by omega))
      subst hnil
      rcases hlabel with hpart | ⟨pre, name, heq, -⟩
      · exact hpart.ne_nil rfl
      · exact absurd heq.symm (List.append_ne_nil_of_right_ne_nil pre (List.cons_ne_nil 47 name))
    · rw [not_or] at hkey
      rw [if_neg (by rw [Bool.or_eq_true, decide_eq_true_eq, decide_eq_true_eq]; omega), labelKey_iff]
      by_cases hvalue : ∀ v, value = some v → v.length ≤ 63
      · have hany : ¬ (value.any fun value => decide (value.length > 63)) = true := by
          rw [Option.any_eq_true]
          rintro ⟨v, hv, hlen⟩
          exact absurd (hvalue v hv) (Nat.not_le_of_lt (of_decide_eq_true hlen))
        rw [if_neg hany]
        have hlen : k.length ≤ 63 := Nat.le_of_not_lt hkey.2
        cases strchr 47 k with
        | none =>
          dsimp only
          rw [checkNameAndValue_iff hvalue, and_iff_left hlen]
        | some parts =>
          dsimp only
          by_cases hpre : parts.1 ≠ [] ∧ parts.1.length ≤ 253
          · have hpos := List.length_pos_of_ne_nil hpre.1
            rw [if_neg (by simp only [Bool.or_eq_true, decide_eq_true_eq]; omega), checkNameAndValue_iff hvalue,
              and_iff_left hlen]
            exact and_congr_left fun _ => ⟨fun h => ⟨hpre.1, hpre.2, h⟩, fun h => h.2.2⟩
          · rw [if_pos]
            · exact iff_of_false (by decide) fun h => hpre ⟨h.1.1.1, h.1.1.2.1⟩
            · rw [not_and_or, not_not] at hpre
              rw [Bool.or_eq_true, decide_eq_true_eq, decide_eq_true_eq, List.length_eq_zero_iff]
              exact hpre.imp_right Nat.lt_of_not_le
      · simp only [not_forall] at hvalue
        obtain ⟨v, hv, hlong⟩ := hvalue
        rw [if_pos]
        · refine iff_of_false (by decide) ?_
          rintro ⟨⟨-, hgood⟩, -⟩
          rcases hgood v hv with rfl | hpart
          · exact hlong (Nat.zero_le 63)
          · exact hlong hpart.short
        · rw [Option.any_eq_true]
          exact ⟨v, hv, decide_eq_true (Nat.lt_of_not_le hlong)⟩

/-- **The code and the grammar agree, exactly** unless a key of the grammar is longer than a name may be. -/
theorem grammar_exact_iff (key value : Option CString) :
    (validateLabel key value = true ↔ LabelGrammar key value) ↔
      (LabelGrammar key value → ∀ k, key = some k → k.length ≤ 63) := by
  rw [validateLabel_iff]
  exact and_iff_left_iff_imp

/-- **A long domain is refused**: 63 characters, a slash and a name of one. -/
theorem prefixed_refused : ¬ ∀ key value, validateLabel key value = true ↔ LabelGrammar key value := by
  intro h
  have hname : LabelPart [97] := labelPart_iff.mpr (by decide)
  have hkey : LabelKey (List.replicate 63 97 ++ 47 :: [97]) :=
    .inr ⟨List.replicate 63 97, [97], rfl, by decide, by decide, by decide, hname⟩
  have haccepted := (h (some (List.replicate 63 97 ++ 47 :: [97])) none).mpr
    ⟨⟨_, rfl, hkey⟩, fun v hv => absurd hv (Option.some_ne_none v).symm⟩
  exact absurd haccepted (by decide)

end Sirah.ApiServer
