import Sirah.Lib.CString

/-!
# Quantities as texts

Two readers of the same texts: `validate_resource_quantity` of `internal/apiserver/validation.c`, at the
boundary of the API, and `limitrange_parse_resource` of `internal/limitrange/limitrange.c`, where a limit is
enforced. The first knows a table of units and a decimal point. The second reads the digits at the start and
searches the text for `Ki`, `Mi` and `Gi`.

* `wholePart`, `fraction`, `unit`: the three parts of a text.
* `Denotes s n`: the text is a whole number of bytes.
* **`readers_agree_iff`**: a text that is accepted and denotes a number below `2^64` is parsed to this number **iff**
  it starts with a digit and is zero, or has one of the four units that are parsed and nothing after the point.
* `kilo_is_one`: `1k` is accepted, denotes 1000 and is parsed to 1.
-/

namespace Sirah.LimitRange

open CString

/-! ## The two readers -/

/-- The units of the validator. -/
def units : List CString := ["m", "k", "M", "G", "T", "P", "Ki", "Mi", "Gi", "Ti", "Pi"]

/-- The loop over the number: was there a digit, and what is left? -/
def scanNumber (hasDigit hasDecimal : Bool) : CString → Bool × CString
  | [] => (hasDigit, [])
  | c :: s =>
    if isDigit c then scanNumber true hasDecimal s
    else if c = 46 ∧ hasDecimal = false then scanNumber hasDigit true s
    else (hasDigit, c :: s)

/-- `validate_resource_quantity`. -/
def validateResourceQuantity (quantity : CString) : Bool :=
  match scanNumber false false quantity with
  | (hasDigit, []) => hasDigit
  | (hasDigit, rest) => hasDigit && units.any fun u => rest == u

/-- `isspace`. -/
def isBlank (c : UInt8) : Bool := c = 32 || (9 ≤ c && c ≤ 13)

/-- The word for a number that is read, the largest one where it does not fit. -/
def saturated (n : Nat) : UInt64 := if n < 2 ^ 64 then UInt64.ofNat n else UInt64.ofNat (2 ^ 64 - 1)

/-- The number at the start of a text, if there is a digit. -/
def scanDigits (s : CString) : Option Nat :=
  if s.takeWhile isDigit = [] then none else some (decimal (s.takeWhile isDigit))

/-- `sscanf(s, "%lu", &value)`: blanks, a sign and digits. A negative number wraps around. -/
def scanLu (s : CString) : Option UInt64 :=
  match s.dropWhile isBlank with
  | 45 :: u => (scanDigits u).map fun n => if n < 2 ^ 64 then -saturated n else saturated n
  | 43 :: u => (scanDigits u).map saturated
  | u => (scanDigits u).map saturated

/-- `limitrange_parse_resource`. -/
def limitrangeParseResource (resourceStr : CString) : Option UInt64 :=
  (scanLu resourceStr).map fun value =>
    if strstr resourceStr ("Ki" : String) then value * 1024
    else if strstr resourceStr ("Mi" : String) then value * 1024 * 1024
    else if strstr resourceStr ("Gi" : String) then value * 1024 * 1024 * 1024
    else value

/-! ## What a text denotes -/

/-- The digits before the point. -/
def wholePart (s : CString) : CString := s.takeWhile isDigit

/-- What follows the first digits. -/
def afterWhole (s : CString) : CString := s.dropWhile isDigit

/-- The digits after the point. -/
def fraction (s : CString) : CString :=
  if (afterWhole s).head? = some 46 then (afterWhole s).tail.takeWhile isDigit else []

/-- The point, the digits after it excluded. -/
def point (s : CString) : CString := if (afterWhole s).head? = some 46 then [46] else []

/-- What follows the number. -/
def unit (s : CString) : CString :=
  if (afterWhole s).head? = some 46 then (afterWhole s).tail.dropWhile isDigit else afterWhole s

/-- The units of bytes. -/
def byteUnits : List (CString × Nat) :=
  [("", 1), ("k", 10 ^ 3), ("M", 10 ^ 6), ("G", 10 ^ 9), ("T", 10 ^ 12), ("P", 10 ^ 15),
    ("Ki", 2 ^ 10), ("Mi", 2 ^ 20), ("Gi", 2 ^ 30), ("Ti", 2 ^ 40), ("Pi", 2 ^ 50)]

/-- **The text is `n` bytes.** -/
def Denotes (s : CString) (n : Nat) : Prop :=
  ∃ factor, (unit s, factor) ∈ byteUnits ∧
    n * 10 ^ (fraction s).length = decimal (wholePart s ++ fraction s) * factor

/-- **The two readers agree** on a text. -/
def Agree (s : CString) (n : Nat) : Prop :=
  validateResourceQuantity s = true → Denotes s n → n < 2 ^ 64 →
    (limitrangeParseResource s).map UInt64.toNat = some n

/-- The units that the parser knows, none included. -/
def parsedUnits : List CString := ["", "Ki", "Mi", "Gi"]

/-- A text that both readers understand: it starts with a digit and is zero, or a whole number of a unit that is
parsed. -/
def Plain (s : CString) : Prop :=
  wholePart s ≠ [] ∧
    ((∀ c ∈ wholePart s ++ fraction s, c = 48) ∨ (unit s ∈ parsedUnits ∧ ∀ c ∈ fraction s, c = 48))

/-! ## The validator -/

variable {s : CString} {n : Nat}

theorem parts (s : CString) : s = wholePart s ++ (point s ++ (fraction s ++ unit s)) := by
  have hs : wholePart s ++ afterWhole s = s := List.takeWhile_append_dropWhile
  have hrest : point s ++ (fraction s ++ unit s) = afterWhole s := by
    unfold point fraction unit
    split
    · next hpoint =>
      rw [List.takeWhile_append_dropWhile]
      exact List.cons_head?_tail hpoint
    · rfl
  rw [hrest, hs]

theorem digit_of_mem_wholePart {c : UInt8} (h : c ∈ wholePart s) : isDigit c = true := List.mem_takeWhile_imp h

theorem digit_of_mem_fraction {c : UInt8} (h : c ∈ fraction s) : isDigit c = true := by
  unfold fraction at h
  split at h
  · exact List.mem_takeWhile_imp h
  · cases h

theorem scanNumber_true (hasDigit : Bool) (s : CString) :
    scanNumber hasDigit true s = (hasDigit || !(s.takeWhile isDigit).isEmpty, s.dropWhile isDigit) := by
  induction s generalizing hasDigit with
  | nil => rw [scanNumber, List.takeWhile_nil, List.isEmpty_nil, Bool.not_true, Bool.or_false]; rfl
  | cons c s ih =>
    unfold scanNumber
    by_cases hc : isDigit c = true
    · rw [if_pos hc, ih, List.takeWhile_cons_of_pos hc, List.dropWhile_cons_of_pos hc]
      simp
    · rw [if_neg hc, if_neg (by simp), List.takeWhile_cons_of_neg hc, List.dropWhile_cons_of_neg hc]
      simp

theorem wholePart_cons {c : UInt8} (hc : isDigit c = true) : wholePart (c :: s) = c :: wholePart s :=
  List.takeWhile_cons_of_pos hc

theorem afterWhole_cons {c : UInt8} (hc : isDigit c = true) : afterWhole (c :: s) = afterWhole s :=
  List.dropWhile_cons_of_pos hc

theorem fraction_congr {t : CString} (h : afterWhole s = afterWhole t) : fraction s = fraction t := by
  unfold fraction
  rw [h]

theorem unit_congr {t : CString} (h : afterWhole s = afterWhole t) : unit s = unit t := by
  unfold unit
  rw [h]

/-- The loop of the validator ends behind the number. -/
theorem scanNumber_eq (hasDigit : Bool) (s : CString) :
    scanNumber hasDigit false s = (hasDigit || !(wholePart s ++ fraction s).isEmpty, unit s) := by
  induction s generalizing hasDigit with
  | nil => cases hasDigit <;> rfl
  | cons c s ih =>
    unfold scanNumber
    by_cases hc : isDigit c = true
    · rw [if_pos hc, ih, wholePart_cons hc, fraction_congr (afterWhole_cons hc), unit_congr (afterWhole_cons hc),
        List.cons_append, List.isEmpty_cons, Bool.true_or, Bool.not_false, Bool.or_true]
    · have hwhole : wholePart (c :: s) = [] := List.takeWhile_cons_of_neg hc
      have hafter : afterWhole (c :: s) = c :: s := List.dropWhile_cons_of_neg hc
      rw [if_neg hc, hwhole, List.nil_append]
      unfold fraction unit
      rw [hafter, List.head?_cons, List.tail_cons]
      by_cases hpoint : c = 46
      · rw [if_pos ⟨hpoint, rfl⟩, scanNumber_true, hpoint, if_pos rfl, if_pos rfl]
      · have hne : ¬ (some c = some 46) := fun h => hpoint (Option.some.inj h)
        rw [if_neg fun h => hpoint h.1, if_neg hne, if_neg hne, List.isEmpty_nil, Bool.not_true, Bool.or_false]

/-- **What the validator accepts**: a number with at least one digit, and a unit of the table or none. -/
theorem validateResourceQuantity_iff :
    validateResourceQuantity s = true ↔ wholePart s ++ fraction s ≠ [] ∧ (unit s = [] ∨ unit s ∈ units) := by
  have hdigit : (!(wholePart s ++ fraction s).isEmpty) = true ↔ wholePart s ++ fraction s ≠ [] := by
    rw [Bool.not_eq_true', ← Bool.not_eq_true, List.isEmpty_iff]
  unfold validateResourceQuantity
  rw [scanNumber_eq, Bool.false_or]
  cases hunit : unit s with
  | nil => exact hdigit.trans (and_iff_left (.inl rfl)).symm
  | cons c u =>
    have hne : c :: u ≠ [] := List.cons_ne_nil c u
    simp only [Bool.and_eq_true, hdigit, List.any_eq_true, beq_iff_eq, exists_eq_right', hne, false_or]

/-! ## The parser -/

/-- The factor that the parser multiplies by. -/
def parsedFactor (u : CString) : Nat :=
  if u = ("Ki" : String) then 2 ^ 10 else if u = ("Mi" : String) then 2 ^ 20
  else if u = ("Gi" : String) then 2 ^ 30 else 1

/-- A unit of bytes that is searched for in the text is found in its unit. -/
theorem strstr_unit {c : UInt8} {needle : CString} (hc : isDigit c = false) (hpoint : c ≠ 46) :
    strstr s (c :: needle) = strstr (unit s) (c :: needle) := by
  have hwhole : c ∉ wholePart s := fun h => absurd (digit_of_mem_wholePart h) (by rw [hc]; decide)
  have hfraction : c ∉ fraction s := fun h => absurd (digit_of_mem_fraction h) (by rw [hc]; decide)
  have hdot : c ∉ point s := by
    unfold point
    split
    · exact fun h => hpoint (List.mem_singleton.mp h)
    · exact List.not_mem_nil
  conv_lhs => rw [parts s]
  rw [strstr_append hwhole, strstr_append hdot, strstr_append hfraction]

/-- The factor that is searched for is the one of the unit. -/
theorem limitrangeParseResource_eq {factor : Nat} (h : (unit s, factor) ∈ byteUnits) :
    limitrangeParseResource s = (scanLu s).map fun v => v * UInt64.ofNat (parsedFactor (unit s)) := by
  unfold limitrangeParseResource
  have hKi : strstr s ("Ki" : String) = strstr (unit s) ("Ki" : String) := strstr_unit (by decide) (by decide)
  have hMi : strstr s ("Mi" : String) = strstr (unit s) ("Mi" : String) := strstr_unit (by decide) (by decide)
  have hGi : strstr s ("Gi" : String) = strstr (unit s) ("Gi" : String) := strstr_unit (by decide) (by decide)
  refine congrArg (fun f => (scanLu s).map f) (funext fun v => ?_)
  rw [hKi, hMi, hGi]
  simp only [byteUnits, List.mem_cons, Prod.mk.injEq, List.not_mem_nil, or_false] at h
  rcases h with h | h | h | h | h | h | h | h | h | h | h <;> rw [h.1] <;>
    simp [strstr, parsedFactor, ofString, List.tails, UInt64.mul_assoc]

/-- A text with digits before the point starts with one: with no blank and no sign. -/
theorem exists_first_digit (h : wholePart s ≠ []) :
    ∃ c t, s = c :: t ∧ isDigit c = true ∧ ¬ isBlank c = true ∧ c ≠ 45 ∧ c ≠ 43 := by
  cases s with
  | nil => exact absurd rfl h
  | cons c s =>
    have hc : isDigit c = true := by
      by_contra hc
      exact h (List.takeWhile_cons_of_neg hc)
    have hrange : 48 ≤ c.toNat ∧ c.toNat ≤ 57 := by
      simpa [isDigit, UInt8.le_iff_toNat_le] using hc
    have hblank : ¬ isBlank c = true := by
      simp only [isBlank, Bool.or_eq_true, Bool.and_eq_true, decide_eq_true_eq, UInt8.le_iff_toNat_le,
        ← UInt8.toNat_inj]
      change ¬ (c.toNat = 32 ∨ 9 ≤ c.toNat ∧ c.toNat ≤ 13)
      omega
    have hminus : c ≠ 45 := by rintro rfl; exact absurd hc (by decide)
    have hplus : c ≠ 43 := by rintro rfl; exact absurd hc (by decide)
    exact ⟨c, s, rfl, hc, hblank, hminus, hplus⟩

/-- A text that starts with a digit is scanned to its first digits. -/
theorem scanLu_of_digit (h : wholePart s ≠ []) : scanLu s = some (saturated (decimal (wholePart s))) := by
  obtain ⟨c, t, rfl, -, hblank, hminus, hplus⟩ := exists_first_digit h
  unfold scanLu
  rw [List.dropWhile_cons_of_neg hblank]
  unfold wholePart at h ⊢
  split
  · next heq => exact absurd (List.cons.inj heq).1 hminus
  · next heq => exact absurd (List.cons.inj heq).1 hplus
  · rw [scanDigits, if_neg h, Option.map_some]

/-- A text that starts with the point or with a unit is not scanned. -/
theorem scanLu_of_no_digit {factor : Nat} (hunit : (unit s, factor) ∈ byteUnits) (h : wholePart s = []) :
    scanLu s = none := by
  have hs := parts s
  rw [h, List.nil_append] at hs
  unfold point at hs
  split at hs
  · rw [hs]
    rfl
  · next hpoint =>
    have hfraction : fraction s = [] := if_neg hpoint
    rw [hfraction] at hs
    simp only [List.nil_append] at hs
    simp only [byteUnits, List.mem_cons, Prod.mk.injEq, List.not_mem_nil, or_false] at hunit
    rw [hs]
    rcases hunit with hu | hu | hu | hu | hu | hu | hu | hu | hu | hu | hu <;> rw [hu.1] <;> rfl

/-! ## Agreement -/

/-- The parser's factor is the unit's where the unit is one of the four, and 1 where the unit is more. -/
theorem parsedFactor_cases {u : CString} {factor : Nat} (h : (u, factor) ∈ byteUnits) :
    u ∈ parsedUnits ∧ parsedFactor u = factor ∧ 0 < factor ∨ u ∉ parsedUnits ∧ parsedFactor u = 1 ∧ 1 < factor := by
  simp only [byteUnits, List.mem_cons, Prod.mk.injEq, List.not_mem_nil, or_false] at h
  rcases h with h | h | h | h | h | h | h | h | h | h | h <;> rw [h.1, h.2] <;> decide

/-- A whole number times a factor is the value of the text if nothing follows the point, or if all is zero where
the factor is too small. -/
theorem whole_mul_eq_iff {whole frac scale factor : Nat} (hscale : 0 < scale) (hfactor : 0 < factor)
    (h : n * scale = (whole * scale + frac) * factor) : whole * factor = n ↔ frac = 0 := by
  have hmul : whole * factor = n ↔ whole * factor * scale = n * scale :=
    ⟨fun h => by rw [h], fun h => Nat.eq_of_mul_eq_mul_right hscale h⟩
  rw [hmul, h, Nat.add_mul, Nat.mul_right_comm, Nat.left_eq_add, Nat.mul_eq_zero, or_iff_left hfactor.ne']

theorem whole_eq_iff {whole frac scale factor : Nat} (hscale : 0 < scale) (hfactor : 1 < factor)
    (h : n * scale = (whole * scale + frac) * factor) : whole = n ↔ whole * scale + frac = 0 := by
  have hmul : whole = n ↔ whole * scale = n * scale :=
    ⟨fun h => by rw [h], fun h => Nat.eq_of_mul_eq_mul_right hscale h⟩
  have htwice : (whole * scale + frac) * 2 ≤ (whole * scale + frac) * factor := Nat.mul_le_mul_left _ hfactor
  constructor
  · intro hn
    have := hmul.mp hn
    omega
  · intro hzero
    rw [hzero, Nat.zero_mul] at h
    have hwhole : whole * scale = 0 := by omega
    exact hmul.mpr (hwhole.trans h.symm)

/-- What is multiplied fits. -/
theorem toNat_saturated_mul {whole factor : Nat} (hfactor : 0 < factor) (h : whole * factor < 2 ^ 64) :
    (saturated whole * UInt64.ofNat factor).toNat = whole * factor := by
  have hwhole : whole < 2 ^ 64 := lt_of_le_of_lt (Nat.le_mul_of_pos_right whole hfactor) h
  rw [saturated, if_pos hwhole, ← UInt64.ofNat_mul, UInt64.toNat_ofNat', Nat.mod_eq_of_lt h]

/-- **The readers agree, exactly** on the texts that both understand. -/
theorem readers_agree_iff (s : CString) (n : Nat) :
    Agree s n ↔ (validateResourceQuantity s = true → Denotes s n → n < 2 ^ 64 → Plain s) := by
  refine imp_congr_right fun _ => forall_congr' fun ⟨factor, hunit, hvalue⟩ => forall_congr' fun hn => ?_
  have hscale : 0 < 10 ^ (fraction s).length := Nat.pow_pos (by decide)
  have hfraction : decimal (fraction s) = 0 ↔ ∀ c ∈ fraction s, c = 48 :=
    decimal_eq_zero_iff fun c hc => digit_of_mem_fraction hc
  have hall : decimal (wholePart s ++ fraction s) = 0 ↔ ∀ c ∈ wholePart s ++ fraction s, c = 48 :=
    decimal_eq_zero_iff fun c hc =>
      (List.mem_append.mp hc).elim digit_of_mem_wholePart digit_of_mem_fraction
  rw [decimal_append] at hvalue hall
  rw [limitrangeParseResource_eq hunit, Plain, ← hall, ← hfraction]
  by_cases hwhole : wholePart s = []
  · rw [scanLu_of_no_digit hunit hwhole]
    exact iff_of_false (by simp) fun h => h.1 hwhole
  · rw [scanLu_of_digit hwhole, Option.map_some, Option.map_some, Option.some.injEq]
    -- whatever the parser multiplies by, the product is at most the number
    have hle : ∀ g ≤ factor, decimal (wholePart s) * g ≤ n := by
      intro g hg
      refine Nat.le_of_mul_le_mul_right ?_ hscale
      calc decimal (wholePart s) * g * 10 ^ (fraction s).length
          = decimal (wholePart s) * 10 ^ (fraction s).length * g := Nat.mul_right_comm _ _ _
        _ ≤ (decimal (wholePart s) * 10 ^ (fraction s).length + decimal (fraction s)) * factor :=
          Nat.mul_le_mul (Nat.le_add_right _ _) hg
        _ = n * 10 ^ (fraction s).length := hvalue.symm
    rcases parsedFactor_cases hunit with ⟨hmem, hparsed, hpos⟩ | ⟨hmem, hparsed, hmore⟩
    · rw [hparsed, toNat_saturated_mul hpos (lt_of_le_of_lt (hle factor le_rfl) hn),
        whole_mul_eq_iff hscale hpos hvalue]
      refine ⟨fun h => ⟨hwhole, .inr ⟨hmem, h⟩⟩, fun h => h.2.elim (fun hzero => ?_) And.right⟩
      exact (Nat.add_eq_zero_iff.mp hzero).2
    · rw [hparsed, toNat_saturated_mul Nat.one_pos (lt_of_le_of_lt (hle 1 hmore.le) hn), Nat.mul_one,
        whole_eq_iff hscale hmore hvalue]
      exact ⟨fun h => ⟨hwhole, .inl h⟩, fun h => h.2.elim id fun hu => absurd hu.1 hmem⟩

/-- **A thousand becomes one**: `1k` is accepted and parsed, and the unit is lost. -/
theorem kilo_is_one : ¬ ∀ (s : CString) (n : Nat), Agree s n := by
  intro h
  have hdenotes : Denotes ("1k" : String) 1000 := ⟨10 ^ 3, by decide, by decide⟩
  exact absurd (h ("1k" : String) 1000 (by decide) hdenotes (by decide)) (by decide)

end Sirah.LimitRange
