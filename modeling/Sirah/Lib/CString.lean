import Mathlib.Algebra.Group.Int.Defs
import Mathlib.Algebra.GroupWithZero.Nat
import Mathlib.Data.List.Infix
import Mathlib.Data.List.TakeWhile

/-!
# C strings

A C string is the list of its bytes before the terminating NUL. String literals coerce to it, byte
by byte.

* `snprintf n s`: what `snprintf` (or a bounded copy that terminates) leaves in a buffer of `n`
  bytes, the first `n - 1` bytes of `s`.
* `strstr hay needle`: does `needle` occur in `hay`? It is the infix relation (`strstr_iff`).
* `splitOn sep s`: the elements of a `sep`-separated list. Each of them occurs in the text
  (`strstr_of_mem_splitOn`); the converse fails.
* `atoi` reads back the number `ofNat` prints (`atoi_ofNat`).
* `decimal`: the number that a text of digits is, digit after digit (`decimal_append`).
* The strings that start with `pre ++ [c]` are those of the lexicographic range up to
  `pre ++ [c + 1]` (`prefix_iff_range`).
-/

/-- A C string. -/
abbrev CString := List UInt8

namespace CString

/-- The bytes of a string literal. -/
def ofString (s : String) : CString := s.toList.map fun c => UInt8.ofNat c.toNat

instance : Coe String CString := ⟨ofString⟩

/-- A decimal number, as `%lu` and `%d` print a natural number. -/
def ofNat (n : Nat) : CString := ofString (toString n)

/-- A decimal number, as `%d` prints it. -/
def ofInt (i : Int) : CString := if i < 0 then 45 :: ofNat i.natAbs else ofNat i.natAbs

/-- The string a buffer of `n` bytes holds after `snprintf`. -/
def snprintf (n : Nat) (s : CString) : CString := s.take (n - 1)

/-- The string an uninitialised buffer of `n` bytes holds after `strncpy` of at most `n - 1` bytes, which does not write the
last one. -/
def strncpy (n : Nat) (s : CString) : Option CString := if s.length < n - 1 then some s else none

/-- The string in an array of `n + 1` bytes after `strncpy` of `n`. If the text fills them it goes on with what is in the
memory from the last byte on. -/
def strncpyOver (n : Nat) (s behind : CString) : CString := if s.length < n then s else s.take n ++ behind

/-- `strchr`: the text before the first `c` and the one after it. -/
def strchr (c : UInt8) (s : CString) : Option (CString × CString) :=
  match s.dropWhile (· ≠ c) with
  | [] => none
  | _ :: rest => some (s.takeWhile (· ≠ c), rest)

/-- `atoi`: blanks, a sign, and the digits that follow. -/
def atoi (s : CString) : Int :=
  let t := s.dropWhile fun c => c = 32 || (9 ≤ c && c ≤ 13)
  let digits (u : CString) : Nat :=
    (u.takeWhile fun c => 48 ≤ c && c ≤ 57).foldl (fun n c => n * 10 + (c.toNat - 48)) 0
  match t with
  | 45 :: u => -digits u
  | 43 :: u => digits u
  | u => digits u

/-- `strtoull` in base 10: a number whose digits do not fit is the largest one. -/
def strtoull (s : CString) : Nat :=
  let i := atoi s
  if i.natAbs < 2 ^ 64 then (i % 2 ^ 64).toNat else 2 ^ 64 - 1

/-- Is it one of the ten digits? -/
def isDigit (c : UInt8) : Bool := 48 ≤ c && c ≤ 57

/-- The number that a text of digits is. -/
def decimal (s : CString) : Nat := s.foldl (fun n c => n * 10 + (c.toNat - 48)) 0

/-! ## Numbers -/

/-- The byte of a digit. -/
theorem digit_byte {c : Char} (h : c.isDigit) : 48 ≤ (UInt8.ofNat c.toNat).toNat ∧
    (UInt8.ofNat c.toNat).toNat ≤ 57 ∧ (UInt8.ofNat c.toNat).toNat = c.toNat := by
  obtain ⟨hlo, hhi⟩ : 48 ≤ c.toNat ∧ c.toNat ≤ 57 := Char.isDigit_iff_toNat.mp h
  rw [UInt8.toNat_ofNat']
  omega

theorem foldl_digits : ∀ (l : List Char) (m : Nat), (∀ c ∈ l, c.isDigit) →
    (l.map fun c => UInt8.ofNat c.toNat).foldl (fun n c => n * 10 + (c.toNat - 48)) m =
      Nat.ofDigitChars 10 l m
  | [], _, _ => rfl
  | c :: l, m, h => by
    have hc := (digit_byte (h c List.mem_cons_self)).2.2
    rw [List.map_cons, List.foldl_cons, hc, Nat.ofDigitChars_cons, Nat.mul_comm,
      foldl_digits l _ fun d hd => h d (List.mem_cons_of_mem c hd)]
    rfl

theorem ofNat_eq (n : Nat) : ofNat n = (Nat.toDigits 10 n).map fun c => UInt8.ofNat c.toNat := by
  unfold ofNat ofString
  rw [show toString n = n.repr from rfl, Nat.toList_repr]

/-- Text that starts with a digit has neither blanks nor a sign before its number. -/
theorem atoi_cons {b : UInt8} {s : CString} (h : 48 ≤ b.toNat) :
    atoi (b :: s) = (((b :: s).takeWhile fun c => 48 ≤ c && c ≤ 57).foldl
      (fun n c => n * 10 + (c.toNat - 48)) 0 : Nat) := by
  have hblank : ¬ (b = 32 || (9 ≤ b && b ≤ 13)) = true := by
    simp only [Bool.or_eq_true, decide_eq_true_eq, Bool.and_eq_true, UInt8.le_iff_toNat_le,
      ← UInt8.toNat_inj, not_or, not_and]
    exact ⟨fun hb => by rw [hb] at h; exact absurd h (by decide),
      fun _ hb => absurd (h.trans hb) (by decide)⟩
  unfold atoi
  rw [List.dropWhile_cons_of_neg (by simpa using hblank)]
  dsimp only
  split
  · rename_i heq
    cases heq
    exact absurd h (by decide)
  · rename_i heq
    cases heq
    exact absurd h (by decide)
  · rfl

/-- A printed number is digits. -/
theorem mem_ofNat {n : Nat} {b : UInt8} (h : b ∈ ofNat n) : 48 ≤ b.toNat ∧ b.toNat ≤ 57 := by
  rw [ofNat_eq] at h
  obtain ⟨c, hc, rfl⟩ := List.mem_map.mp h
  obtain ⟨hlo, hhi, -⟩ := digit_byte (Nat.isDigit_of_mem_toDigits (by decide) (by decide) hc)
  exact ⟨hlo, hhi⟩

theorem ofNat_ne_nil (n : Nat) : ofNat n ≠ [] := by
  rw [ofNat_eq, Ne, List.map_eq_nil_iff]
  exact Nat.toDigits_ne_nil

/-- **How long a printed number is.** -/
theorem length_ofNat_le_iff {n k : Nat} (hk : 0 < k) : (ofNat n).length ≤ k ↔ n < 10 ^ k := by
  rw [ofNat_eq, List.length_map]
  exact Nat.length_toDigits_le_iff (by decide) hk

theorem foldl_ofNat (n : Nat) : (ofNat n).foldl (fun n c => n * 10 + (c.toNat - 48)) 0 = n := by
  rw [ofNat_eq, foldl_digits _ _ fun c hc => Nat.isDigit_of_mem_toDigits (by decide) (by decide) hc,
    Nat.ofDigitChars_ten_toDigits]

/-- Only zero starts with a zero. -/
theorem head_toDigits {n : Nat} (hn : 0 < n) : (Nat.toDigits 10 n).head? ≠ some '0' := by
  induction n using Nat.strong_induction_on with
  | _ n ih =>
    by_cases hlt : n < 10
    · have hdigit : ∀ m < 10, 0 < m → m.digitChar ≠ '0' := by decide
      rw [Nat.toDigits_of_lt_base hlt]
      exact fun h => hdigit n hlt hn (Option.some.inj h)
    · rw [Nat.toDigits_of_base_le (by decide) (by omega), List.head?_append_of_ne_nil _ Nat.toDigits_ne_nil]
      exact ih (n / 10) (by omega) (by omega)

theorem length_ofNat_of_head {n : Nat} (h : (ofNat n).head? = some 48) : (ofNat n).length = 1 := by
  rw [ofNat_eq, List.head?_map, Option.map_eq_some_iff] at h
  obtain ⟨c, hc, hbyte⟩ := h
  have hdigit := digit_byte (Nat.isDigit_of_mem_toDigits (by decide) (by decide) (List.mem_of_head? hc))
  rw [hbyte] at hdigit
  obtain rfl : c = '0' := Char.toNat_inj.mp hdigit.2.2.symm
  obtain rfl : n = 0 := by
    by_contra hn
    exact head_toDigits (Nat.pos_of_ne_zero hn) hc
  rw [ofNat_eq, Nat.toDigits_zero]
  rfl

/-- **A printed number reads back.** -/
theorem atoi_ofNat (n : Nat) : atoi (ofNat n) = n := by
  have hall : (ofNat n).takeWhile (fun c => 48 ≤ c && c ≤ 57) = ofNat n := by
    refine List.takeWhile_eq_self_iff.mpr fun b hb => ?_
    rw [Bool.and_eq_true, decide_eq_true_eq, decide_eq_true_eq]
    exact mem_ofNat hb
  cases hn : ofNat n with
  | nil => exact absurd hn (ofNat_ne_nil n)
  | cons b s => rw [atoi_cons (mem_ofNat (hn ▸ List.mem_cons_self)).1, ← hn, hall, foldl_ofNat]

theorem ofNat_inj {n m : Nat} (h : ofNat n = ofNat m) : n = m := by
  have hatoi := congrArg atoi h
  rw [atoi_ofNat, atoi_ofNat] at hatoi
  exact Int.ofNat_inj.mp hatoi

theorem foldl_decimal (s : CString) (n : Nat) :
    s.foldl (fun n c => n * 10 + (c.toNat - 48)) n = n * 10 ^ s.length + decimal s := by
  unfold decimal
  induction s generalizing n with
  | nil => rw [List.foldl_nil, List.foldl_nil, List.length_nil, Nat.pow_zero, Nat.mul_one, Nat.add_zero]
  | cons c s ih =>
    rw [List.foldl_cons, List.foldl_cons, ih, ih (0 * 10 + (c.toNat - 48)), List.length_cons, Nat.pow_succ']
    rw [Nat.zero_mul, Nat.zero_add, Nat.add_mul, Nat.mul_assoc, Nat.add_assoc]

theorem decimal_append (s t : CString) : decimal (s ++ t) = decimal s * 10 ^ t.length + decimal t := by
  rw [← foldl_decimal t (decimal s), decimal, decimal, List.foldl_append]

/-- **Only zeros are zero.** -/
theorem decimal_eq_zero_iff {s : CString} (hs : ∀ c ∈ s, isDigit c = true) : decimal s = 0 ↔ ∀ c ∈ s, c = 48 := by
  induction s with
  | nil => exact iff_of_true rfl nofun
  | cons c s ih =>
    rw [List.forall_mem_cons] at hs
    have hcons : decimal (c :: s) = (c.toNat - 48) * 10 ^ s.length + decimal s := by
      rw [← foldl_decimal s, decimal, List.foldl_cons, Nat.zero_mul, Nat.zero_add]
    have hdigit : c.toNat - 48 = 0 ↔ c = 48 := by
      have hlo : 48 ≤ c.toNat := (decide_eq_true_eq.mp (Bool.and_eq_true_iff.mp hs.1).1 : (48 : UInt8) ≤ c)
      rw [← UInt8.toNat_inj]
      exact ⟨fun h => by change c.toNat = 48; omega, fun h => by rw [h]; rfl⟩
    have hpow : 10 ^ s.length ≠ 0 := (Nat.pow_pos (by decide)).ne'
    rw [List.forall_mem_cons, hcons, Nat.add_eq_zero_iff, Nat.mul_eq_zero, or_iff_left hpow, hdigit, ih hs.2]

theorem snprintf_of_lt {n : Nat} {s : CString} (h : s.length < n) : snprintf n s = s :=
  List.take_of_length_le (by omega)

theorem snprintf_ne_nil {n : Nat} {s : CString} (hn : 1 < n) (hs : s ≠ []) : snprintf n s ≠ [] := by
  rw [snprintf, Ne, List.take_eq_nil_iff, not_or]
  exact ⟨by omega, hs⟩

/-- A buffer that holds a byte the text `t` has not does not hold `t`. -/
theorem snprintf_append_ne {n : Nat} {s t u : CString} {c : UInt8} (hs : s.length + 1 < n) (hc : c ∉ t) :
    snprintf n (s ++ c :: u) ≠ t := by
  rintro rfl
  have hpre : s ++ [c] <+: (s ++ c :: u).take (n - 1) := by
    rw [List.prefix_take_iff, List.length_append, List.length_singleton]
    exact ⟨⟨u, by simp⟩, by omega⟩
  exact hc (hpre.subset (List.mem_append_right s List.mem_cons_self))

theorem strncpyOver_eq_iff {n : Nat} {text behind : CString} :
    strncpyOver n text behind = text ↔ text.length < n ∨ behind = text.drop n := by
  unfold strncpyOver
  split
  · next hlt => exact iff_of_true rfl (.inl hlt)
  · next hge =>
    have hsplit : text.take n ++ behind = text ↔ text.take n ++ behind = text.take n ++ text.drop n := by
      rw [List.take_append_drop]
    rw [hsplit, List.append_cancel_left_eq, or_iff_right hge]

theorem strncpyOver_nil (n : Nat) (text : CString) : strncpyOver n text [] = text.take n := by
  unfold strncpyOver
  split
  · next hlt => exact (List.take_of_length_le (Nat.le_of_lt hlt)).symm
  · exact List.append_nil _

theorem strchr_append {c : UInt8} {s t : CString} (h : c ∉ s) : strchr c (s ++ c :: t) = some (s, t) := by
  have hne : ∀ a ∈ s, decide (a ≠ c) = true := fun a ha => decide_eq_true fun hac => h (hac ▸ ha)
  unfold strchr
  rw [List.dropWhile_append_of_pos hne, List.takeWhile_append_of_pos hne]
  simp

theorem strchr_eq_none {c : UInt8} {s : CString} (h : c ∉ s) : strchr c s = none := by
  have hne : ∀ a ∈ s, decide (a ≠ c) = true := fun a ha => decide_eq_true fun hac => h (hac ▸ ha)
  unfold strchr
  rw [List.dropWhile_eq_nil_iff.mpr hne]

/-- Where the first `c` is. -/
theorem strchr_eq_some {c : UInt8} {s x y : CString} (h : strchr c s = some (x, y)) : s = x ++ c :: y ∧ c ∉ x := by
  have hsplit : s.takeWhile (· ≠ c) ++ s.dropWhile (· ≠ c) = s := List.takeWhile_append_dropWhile
  unfold strchr at h
  split at h
  · cases h
  · next b rest hdrop =>
    obtain ⟨rfl, rfl⟩ := Prod.mk.inj (Option.some.inj h)
    have hb : b = c := by
      have hhead := List.head_dropWhile_not (fun a => decide (a ≠ c)) (l := s) (by rw [hdrop]; exact List.cons_ne_nil b rest)
      simp only [hdrop, List.head_cons, decide_eq_false_iff_not, not_not] at hhead
      exact hhead
    rw [hdrop, hb] at hsplit
    refine ⟨hsplit.symm, fun hmem => ?_⟩
    have hne : decide (c ≠ c) = true := List.mem_takeWhile_imp (p := fun a => decide (a ≠ c)) hmem
    exact of_decide_eq_true hne rfl

/-- Where there is none. -/
theorem strchr_eq_none_iff {c : UInt8} {s : CString} : strchr c s = none ↔ c ∉ s := by
  refine ⟨fun h hmem => ?_, strchr_eq_none⟩
  obtain ⟨x, y, rfl, hx⟩ := List.eq_append_cons_of_mem hmem
  rw [strchr_append hx] at h
  cases h

theorem strchr_ne_nil {a c : UInt8} {s x y : CString} (hc : c ≠ a) (h : strchr a (c :: s) = some (x, y)) :
    x ≠ [] := by
  obtain ⟨heq, -⟩ := strchr_eq_some h
  rintro rfl
  exact hc (List.cons.inj heq).1

/-- `strstr(hay, needle) != NULL`. -/
def strstr (hay needle : CString) : Bool := hay.tails.any fun t => needle.isPrefixOf t

theorem strstr_iff {hay needle : CString} : strstr hay needle = true ↔ needle <:+: hay := by
  simp only [strstr, List.any_eq_true, List.mem_tails, List.isPrefixOf_iff_prefix]
  rw [List.infix_iff_prefix_suffix]
  exact ⟨fun ⟨t, hs, hp⟩ => ⟨t, hp, hs⟩, fun ⟨t, hp, hs⟩ => ⟨t, hs, hp⟩⟩

/-- A needle is not found in a text that has not its first byte. -/
theorem strstr_append {s t needle : CString} {c : UInt8} (h : c ∉ s) :
    strstr (s ++ t) (c :: needle) = strstr t (c :: needle) := by
  induction s with
  | nil => rfl
  | cons b s ih =>
    rw [List.mem_cons, not_or] at h
    have hhead : (c :: needle).isPrefixOf (b :: (s ++ t)) = false := by
      rw [List.isPrefixOf_cons_cons, beq_eq_false_iff_ne.mpr h.1, Bool.false_and]
    rw [List.cons_append, strstr, List.tails_cons, List.any_cons, hhead, Bool.false_or]
    exact ih h.2

/-- The elements of a `sep`-separated list. -/
def splitOn (sep : UInt8) : CString → List CString
  | [] => [[]]
  | c :: cs =>
    if c = sep then [] :: splitOn sep cs
    else
      match splitOn sep cs with
      | [] => [[c]]
      | e :: es => (c :: e) :: es

theorem splitOn_ne_nil (sep : UInt8) (s : CString) : splitOn sep s ≠ [] := by
  cases s with
  | nil => simp [splitOn]
  | cons c cs =>
    unfold splitOn
    split
    · simp
    · split <;> simp

theorem splitOn_of_not_mem {sep : UInt8} : ∀ {s : CString}, sep ∉ s → splitOn sep s = [s]
  | [], _ => rfl
  | c :: cs, h => by
    have hc : c ≠ sep := fun hc => h (hc ▸ List.mem_cons_self)
    have ih := splitOn_of_not_mem fun hcs => h (List.mem_cons_of_mem c hcs)
    simp [splitOn, hc, ih]

/-- A separator ends an element. -/
theorem splitOn_append {sep : UInt8} {rest : CString} : ∀ {s : CString}, sep ∉ s →
    splitOn sep (s ++ sep :: rest) = s :: splitOn sep rest
  | [], _ => by simp [splitOn]
  | c :: cs, h => by
    have hc : c ≠ sep := fun hc => h (hc ▸ List.mem_cons_self)
    have ih : splitOn sep (cs ++ sep :: rest) = cs :: splitOn sep rest :=
      splitOn_append fun hcs => h (List.mem_cons_of_mem c hcs)
    simp [splitOn, hc, ih]

/-- The first element starts the text, and every other one lies inside it. -/
theorem splitOn_spec (sep : UInt8) : ∀ (s : CString) {e : CString} {es : List CString},
    splitOn sep s = e :: es → e <+: s ∧ ∀ x ∈ es, x <:+: s
  | [], e, es, h => by
    simp only [splitOn, List.cons.injEq] at h
    obtain ⟨rfl, rfl⟩ := h
    exact ⟨List.prefix_rfl, fun x hx => absurd hx List.not_mem_nil⟩
  | c :: cs, e, es, h => by
    have lift : ∀ {x : CString}, x <:+: cs → x <:+: c :: cs := fun hx =>
      hx.trans (List.suffix_cons c cs).isInfix
    cases hsp : splitOn sep cs with
    | nil => exact absurd hsp (splitOn_ne_nil sep cs)
    | cons e' es' =>
      obtain ⟨hpre, hinf⟩ := splitOn_spec sep cs hsp
      simp only [splitOn, hsp] at h
      split at h
      · obtain ⟨rfl, rfl⟩ := List.cons.inj h
        refine ⟨List.nil_prefix, fun x hx => ?_⟩
        rcases List.mem_cons.mp hx with rfl | hx
        · exact lift hpre.isInfix
        · exact lift (hinf x hx)
      · obtain ⟨rfl, rfl⟩ := List.cons.inj h
        exact ⟨List.cons_prefix_cons.mpr ⟨rfl, hpre⟩, fun x hx => lift (hinf x hx)⟩

/-- An element of a separated list occurs in the list's text. -/
theorem strstr_of_mem_splitOn {sep : UInt8} {s x : CString} (h : x ∈ splitOn sep s) :
    strstr s x = true := by
  rw [strstr_iff]
  cases hsp : splitOn sep s with
  | nil => exact absurd hsp (splitOn_ne_nil sep s)
  | cons e es =>
    obtain ⟨hpre, hinf⟩ := splitOn_spec sep s hsp
    rw [hsp] at h
    rcases List.mem_cons.mp h with rfl | h
    · exact hpre.isInfix
    · exact hinf x h

/-! ## Lexicographic ranges -/

theorem toNat_succ {c : UInt8} (hc : c ≠ 255) : (c + 1).toNat = c.toNat + 1 := by
  have hlt := c.toNat_lt
  have hne : c.toNat ≠ 255 := fun h => hc (UInt8.toNat_inj.mp h)
  rw [UInt8.toNat_add, show (1 : UInt8).toNat = 1 from rfl]
  omega

/-- **A prefix is a range**, as long as its last byte can be incremented. -/
theorem prefix_iff_range {c : UInt8} (hc : c ≠ 255) : ∀ {pre k : CString},
    pre ++ [c] <+: k ↔ ¬ k < pre ++ [c] ∧ k < pre ++ [c + 1]
  | _, [] => by simp
  | [], d :: ds => by
    have hsucc := toNat_succ hc
    simp only [List.nil_append, List.cons_lt_cons_iff, List.not_lt_nil, and_false, or_false,
      List.cons_prefix_cons, List.nil_prefix, and_true]
    rw [UInt8.lt_iff_toNat_lt, UInt8.lt_iff_toNat_lt, ← UInt8.toNat_inj]
    omega
  | p :: ps, d :: ds => by
    simp only [List.cons_append, List.cons_lt_cons_iff, List.cons_prefix_cons,
      @prefix_iff_range c hc ps ds]
    constructor
    · rintro ⟨rfl, hge, hlt⟩
      exact ⟨fun h => h.elim (UInt8.lt_irrefl p) fun h => hge h.2, .inr ⟨rfl, hlt⟩⟩
    · rintro ⟨hge, h | ⟨rfl, hlt⟩⟩
      · exact absurd (.inl h) hge
      · exact ⟨rfl, fun h => hge (.inr ⟨rfl, h⟩), hlt⟩

/-- A range that ends before it starts. -/
theorem lt_append_of_lt {t : CString} : ∀ {s k : CString}, k < s → k < s ++ t
  | [], k, h => absurd h (List.not_lt_nil k)
  | c :: cs, [], _ => List.nil_lt_cons c (cs ++ t)
  | c :: cs, d :: ds, h => by
    rw [List.cons_append, List.cons_lt_cons_iff]
    rcases List.cons_lt_cons_iff.mp h with hlt | ⟨rfl, hlt⟩
    · exact .inl hlt
    · exact .inr ⟨rfl, lt_append_of_lt hlt⟩

example : strstr ("devops,qa" : String) ("ops" : String) = true ∧
    ofString "ops" ∉ splitOn 44 ("devops,qa" : String) := by decide

end CString
