import Sirah.Etcd.Base64
import Sirah.Lib.Signed

/-!
# Base64 against RFC 4648

`etcd_base64_encode` of `internal/etcd/etcd_client.c` with the buffer it allocates, against the encoding as the
standard describes it: the bits of the bytes, six at a time, the last six filled with zeros, and `=` up to a
multiple of four characters.

* `base64Encode_eq_rfc`: the characters are those of the standard, for every string.
* `input_len` is a `size_t`, but `output_len` an `int`. For strings from 1610612734 bytes on the length does not
  fit: it is negative, or smaller than the text.

**`codec_right_iff`**: the encoding is that of the standard, and is decoded to the string again, **iff**
`output_len` fits its `int`.
-/

namespace Sirah.Etcd

/-! ## The standard -/

/-- The eight bits of a byte, the most significant first. -/
def byteBits (b : UInt8) : List Bool := [7, 6, 5, 4, 3, 2, 1, 0].map b.toNat.testBit

/-- The number that bits denote, the most significant first. -/
def bitsValue : List Bool → Nat
  | [] => 0
  | b :: bits => b.toNat * 2 ^ bits.length + bitsValue bits

/-- Bits six at a time; the last group is filled with zeros. -/
def sixBitGroups : List Bool → List (List Bool)
  | b0 :: b1 :: b2 :: b3 :: b4 :: b5 :: rest => [b0, b1, b2, b3, b4, b5] :: sixBitGroups rest
  | [] => []
  | rest => [rest ++ List.replicate (6 - rest.length) false]

/-- The alphabet: `A` to `Z`, `a` to `z`, `0` to `9`, `+` and `/`. -/
def rfcChar (n : Nat) : UInt8 :=
  if n < 26 then .ofNat (65 + n)
  else if n < 52 then .ofNat (97 + (n - 26))
  else if n < 62 then .ofNat (48 + (n - 52))
  else if n = 62 then 43
  else 47

/-- The characters of bits. -/
def rfcChars (bits : List Bool) : CString := (sixBitGroups bits).map fun g => rfcChar (bitsValue g)

/-- The `=` after so many characters. -/
def rfcPadding (chars : Nat) : CString := List.replicate ((4 - chars % 4) % 4) 61

/-- **The encoding of RFC 4648.** -/
def rfcEncode (s : CString) : CString :=
  rfcChars (s.flatMap byteBits) ++ rfcPadding (rfcChars (s.flatMap byteBits)).length

/-! ## The buffers -/

/-- `output_len` of `etcd_base64_encode`. -/
def encodedLen (inputLen : Nat) : Int := Int.wrap32 ((inputLen + 2) / 3 * 4 + 1 : Nat)

/-- `etcd_base64_encode`, with its buffer: no result where `malloc` is asked for a negative length, or the text
and its NUL do not fit. -/
def encodeAlloc (input : CString) : Option CString :=
  if (base64Encode input).length + 1 ≤ encodedLen input.length then some (base64Encode input) else none

/-- `etcd_base64_decode`, with its buffer: no result where the length does not fit `input_len`. -/
def decodeAlloc (input : CString) : Option CString :=
  if (input.length + 1 : Int) ≤ Int.wrap32 (input.length + 1) then some (base64Decode input) else none

/-- **The codec is right** on a string. -/
structure CodecRight (s : CString) : Prop where
  encoded : encodeAlloc s = some (rfcEncode s)
  length_eq : (rfcEncode s).length = 4 * ((s.length + 2) / 3)
  decoded : (encodeAlloc s).bind decodeAlloc = some s

/-! ## Bits and digits -/

theorem bitsValue_append (a b : List Bool) :
    bitsValue (a ++ b) = bitsValue a * 2 ^ b.length + bitsValue b := by
  induction a with
  | nil => simp [bitsValue]
  | cons x a ih =>
    rw [List.cons_append, bitsValue, bitsValue, ih, List.length_append, Nat.pow_add, Nat.add_mul,
      Nat.mul_assoc, Nat.add_assoc]

/-- The bits of a number below 256, from above and from below. -/
theorem bitsValue_testBit : ∀ n < 256,
    bitsValue ([7, 6, 5, 4, 3, 2].map n.testBit) = n / 4 ∧ bitsValue ([1, 0].map n.testBit) = n % 4 ∧
      bitsValue ([7, 6, 5, 4].map n.testBit) = n / 16 ∧ bitsValue ([3, 2, 1, 0].map n.testBit) = n % 16 ∧
      bitsValue ([7, 6].map n.testBit) = n / 64 ∧
      bitsValue ([5, 4, 3, 2, 1, 0].map n.testBit) = n % 64 := by
  decide +kernel

/-- The two alphabets. -/
theorem base64Char_eq_rfcChar : ∀ n < 64, base64Char (.ofNat n) = rfcChar n := by
  decide +kernel

/-- The four groups of three bytes. -/
def groups (a0 a1 a2 : UInt8) : List (List Bool) :=
  [[7, 6, 5, 4, 3, 2].map a0.toNat.testBit, [1, 0].map a0.toNat.testBit ++ [7, 6, 5, 4].map a1.toNat.testBit,
    [3, 2, 1, 0].map a1.toNat.testBit ++ [7, 6].map a2.toNat.testBit,
    [5, 4, 3, 2, 1, 0].map a2.toNat.testBit]

/-- **The characters of three bytes** are those of their four groups of bits. -/
theorem chars_eq_groups (a0 a1 a2 : UInt8) :
    [base64Char (sextets a0 a1 a2).1, base64Char (sextets a0 a1 a2).2.1,
      base64Char (sextets a0 a1 a2).2.2.1, base64Char (sextets a0 a1 a2).2.2.2] =
      (groups a0 a1 a2).map fun g => rfcChar (bitsValue g) := by
  have h0 := a0.toNat_lt
  have h1 := a1.toNat_lt
  have h2 := a2.toNat_lt
  obtain ⟨p0, p1, -⟩ := bitsValue_testBit a0.toNat h0
  obtain ⟨-, -, q0, q1, -⟩ := bitsValue_testBit a1.toNat h1
  obtain ⟨-, -, -, -, r0, r1⟩ := bitsValue_testBit a2.toNat h2
  rw [sextets_eq, base64Char_eq_rfcChar _ (by omega), base64Char_eq_rfcChar _ (by omega),
    base64Char_eq_rfcChar _ (by omega), base64Char_eq_rfcChar _ (by omega)]
  simp only [groups, List.map_cons, List.map_nil, bitsValue_append] at p0 p1 q0 q1 r0 r1 ⊢
  rw [p0, p1, q0, q1, r0, r1]
  rfl

/-! ## Whole strings -/

/-- Three bytes more. -/
theorem rfcChars_cons (a0 a1 a2 : UInt8) (rest : CString) :
    rfcChars ((a0 :: a1 :: a2 :: rest).flatMap byteBits) =
      [base64Char (sextets a0 a1 a2).1, base64Char (sextets a0 a1 a2).2.1,
        base64Char (sextets a0 a1 a2).2.2.1, base64Char (sextets a0 a1 a2).2.2.2] ++
        rfcChars (rest.flatMap byteBits) := by
  rw [chars_eq_groups]
  rfl

/-- The last two bytes, with two zeros. -/
theorem rfcChars_two (a0 a1 : UInt8) : rfcChars ([a0, a1].flatMap byteBits) =
    [base64Char (sextets a0 a1 0).1, base64Char (sextets a0 a1 0).2.1, base64Char (sextets a0 a1 0).2.2.1] := by
  have h := congrArg (List.take 3) (chars_eq_groups a0 a1 0)
  exact h.symm

/-- The last byte, with four zeros. -/
theorem rfcChars_one (a0 : UInt8) : rfcChars ([a0].flatMap byteBits) =
    [base64Char (sextets a0 0 0).1, base64Char (sextets a0 0 0).2.1] := by
  have h := congrArg (List.take 2) (chars_eq_groups a0 0 0)
  exact h.symm

/-- The padding depends on the last characters only. -/
theorem rfcPadding_add_four (n : Nat) : rfcPadding (n + 4) = rfcPadding n := by
  unfold rfcPadding
  rw [Nat.add_mod_right]

/-- **The characters are those of the standard.** -/
theorem base64Encode_eq_rfc : ∀ s : CString, base64Encode s = rfcEncode s
  | a0 :: a1 :: a2 :: rest => by
    have ih := base64Encode_eq_rfc rest
    unfold rfcEncode at ih ⊢
    rw [rfcChars_cons, List.length_append, Nat.add_comm]
    change base64Char _ :: base64Char _ :: base64Char _ :: base64Char _ :: base64Encode rest = _
    rw [ih, ← rfcPadding_add_four]
    rfl
  | [a0, a1] => by
    rw [rfcEncode, rfcChars_two]
    rfl
  | [a0] => by
    rw [rfcEncode, rfcChars_one]
    rfl
  | [] => rfl

/-- Four characters for every three bytes. -/
theorem length_base64Encode : ∀ s : CString, (base64Encode s).length = 4 * ((s.length + 2) / 3)
  | a0 :: a1 :: a2 :: rest => by
    have ih := length_base64Encode rest
    simp only [base64Encode, List.length_cons, ih]
    omega
  | [a0, a1] => by simp [base64Encode]
  | [a0] => by simp [base64Encode]
  | [] => rfl

/-- A number is what an `int` holds of it, or greater, exactly if it fits. -/
theorem le_wrap32_iff {n : Nat} : (n : Int) ≤ Int.wrap32 n ↔ n < 2 ^ 31 := by
  constructor
  · intro h
    have hfits := (Int.wrap32_fits n).2
    omega
  · intro h
    have heq : Int.wrap32 n = n := Int.wrap32_of_fits (by omega) (by omega)
    exact Int.le_of_eq heq.symm

/-- **When the text fits its buffer.** -/
theorem encodeAlloc_eq (s : CString) : encodeAlloc s =
    if 4 * ((s.length + 2) / 3) + 1 < 2 ^ 31 then some (rfcEncode s) else none := by
  have hfits := @le_wrap32_iff ((s.length + 2) / 3 * 4 + 1)
  rw [Nat.mul_comm] at hfits
  unfold encodeAlloc encodedLen
  rw [base64Encode_eq_rfc, ← base64Encode_eq_rfc s, length_base64Encode, Nat.mul_comm _ 4]
  exact if_congr hfits rfl rfl

/-- A text that fits is read whole. -/
theorem decodeAlloc_of_lt {t : CString} (h : t.length + 1 < 2 ^ 31) : decodeAlloc t = some (base64Decode t) :=
  if_pos (le_wrap32_iff.mpr h)

/-- **The codec is right**, exactly on the strings whose encoding fits an `int` with its NUL. -/
theorem codec_right_iff (s : CString) : CodecRight s ↔ 4 * ((s.length + 2) / 3) + 1 < 2 ^ 31 := by
  constructor
  · intro h
    by_contra hlong
    have hnone := encodeAlloc_eq s
    rw [if_neg hlong, h.encoded] at hnone
    cases hnone
  · intro hfits
    have hsome := encodeAlloc_eq s
    rw [if_pos hfits] at hsome
    have hlen : (rfcEncode s).length = 4 * ((s.length + 2) / 3) := by
      rw [← base64Encode_eq_rfc, length_base64Encode]
    refine ⟨hsome, hlen, ?_⟩
    rw [hsome, Option.bind_some, decodeAlloc_of_lt (by omega), ← base64Encode_eq_rfc, base64_roundtrip]

/-- A string of 1610612734 letters: `output_len` would be 2 ^ 31 + 1. -/
theorem long_string_not_encoded : ¬ CodecRight (List.replicate 1610612734 97) := by
  intro h
  have hnone := encodeAlloc_eq (List.replicate 1610612734 97)
  rw [List.length_replicate, if_neg (by decide), h.encoded] at hnone
  cases hnone

end Sirah.Etcd
