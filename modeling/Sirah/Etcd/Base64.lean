import Sirah.Lib.CString

/-!
# Base64

Model of `etcd_base64_encode` and `etcd_base64_decode` in `internal/etcd/etcd_client.c`. Both loops
fill a small array (`a[3]`, `a[4]`) and flush it when it is full; the models take the input that many
bytes at a time. All arithmetic is on `unsigned char`.

**`base64_roundtrip`**: decoding an encoded string gives the string back.
-/

namespace Sirah.Etcd

/-- `base64_chars`. -/
def base64Chars : CString := "ABCDEFGHIJKLMNOPQRSTUVWXYZabcdefghijklmnopqrstuvwxyz0123456789+/"

/-- `base64_chars[b]`. -/
def base64Char (b : UInt8) : UInt8 := base64Chars.getD b.toNat 0

/-- The four six-bit digits of three bytes. -/
def sextets (a0 a1 a2 : UInt8) : UInt8 × UInt8 × UInt8 × UInt8 :=
  ((a0 &&& 0xfc) >>> 2, ((a0 &&& 0x03) <<< 4) + ((a1 &&& 0xf0) >>> 4),
    ((a1 &&& 0x0f) <<< 2) + ((a2 &&& 0xc0) >>> 6), a2 &&& 0x3f)

/-- `etcd_base64_encode`. -/
def base64Encode : CString → CString
  | a0 :: a1 :: a2 :: rest =>
    let (b0, b1, b2, b3) := sextets a0 a1 a2
    base64Char b0 :: base64Char b1 :: base64Char b2 :: base64Char b3 :: base64Encode rest
  | [a0, a1] =>
    let (b0, b1, b2, _) := sextets a0 a1 0
    [base64Char b0, base64Char b1, base64Char b2, 61]
  | [a0] =>
    let (b0, b1, _, _) := sextets a0 0 0
    [base64Char b0, base64Char b1, 61, 61]
  | [] => []

/-- The place of a character in `base64_chars`, 64 if it has none. -/
def base64Digit (c : UInt8) : UInt8 := UInt8.ofNat (base64Chars.idxOf c)

/-- The three bytes of four digits. -/
def octets (a0 a1 a2 a3 : UInt8) : UInt8 × UInt8 × UInt8 :=
  ((a0 <<< 2) + ((a1 &&& 0x30) >>> 4), ((a1 &&& 0x0f) <<< 4) + ((a2 &&& 0x3c) >>> 2),
    ((a2 &&& 0x03) <<< 6) + a3)

/-- The loop of `etcd_base64_decode` over the digits. -/
def decodeDigits : List UInt8 → CString
  | a0 :: a1 :: a2 :: a3 :: rest =>
    let (b0, b1, b2) := octets a0 a1 a2 a3
    b0 :: b1 :: b2 :: decodeDigits rest
  | [a0, a1, a2] =>
    let (b0, b1, _) := octets a0 a1 a2 0
    [b0, b1]
  | [a0, a1] =>
    let (b0, _, _) := octets a0 a1 0 0
    [b0]
  | _ => []

/-- `etcd_base64_decode`: everything before the first `=`. -/
def base64Decode (input : CString) : CString :=
  decodeDigits ((input.takeWhile (· ≠ 61)).map base64Digit)

/-! ## The digits of a byte -/

/-- A digit's character is no padding, and stands for the digit. -/
theorem digit_char : ∀ n < 64, base64Char (.ofNat n) ≠ 61 ∧
    base64Digit (base64Char (.ofNat n)) = .ofNat n := by decide +kernel

theorem base64Char_spec {b : UInt8} (h : b < 64) : base64Char b ≠ 61 ∧ base64Digit (base64Char b) = b := by
  have hb := digit_char b.toNat (UInt8.lt_iff_toNat_lt.mp h)
  rwa [UInt8.ofNat_toNat] at hb

/-- A mask of the low bits. -/
theorem and_low {m : UInt8} {i : Nat} (hm : m.toNat = 2 ^ i - 1) (a : UInt8) : a &&& m = .ofNat (a.toNat % 2 ^ i) := by
  have hlt : a.toNat % 2 ^ i < 2 ^ 8 := (Nat.mod_le _ _).trans_lt a.toNat_lt
  rw [← UInt8.toNat_inj, UInt8.toNat_and, hm, Nat.and_two_pow_sub_one_eq_mod, UInt8.toNat_ofNat',
    Nat.mod_eq_of_lt hlt]

/-- A mask of high bits, shifted down. -/
theorem and_high {m k : UInt8} {i j : Nat} (hk : k.toNat % 8 = j) (hm : m.toNat >>> j = 2 ^ i - 1) (a : UInt8) :
    (a &&& m) >>> k = .ofNat (a.toNat / 2 ^ j % 2 ^ i) := by
  have hlt : a.toNat / 2 ^ j % 2 ^ i < 2 ^ 8 :=
    ((Nat.mod_le _ _).trans (Nat.div_le_self _ _)).trans_lt a.toNat_lt
  rw [← UInt8.toNat_inj, UInt8.toNat_shiftRight, UInt8.toNat_and, hk, Nat.shiftRight_and_distrib, hm,
    Nat.and_two_pow_sub_one_eq_mod, Nat.shiftRight_eq_div_pow, UInt8.toNat_ofNat', Nat.mod_eq_of_lt hlt]

/-- A shift up. -/
theorem ofNat_shiftLeft {k : UInt8} {j : Nat} (hk : k.toNat % 8 = j) (n : Nat) :
    UInt8.ofNat n <<< k = .ofNat (n * 2 ^ j) := by
  rw [← UInt8.toNat_inj, UInt8.toNat_shiftLeft, hk, UInt8.toNat_ofNat', UInt8.toNat_ofNat', Nat.shiftLeft_eq,
    Nat.mod_mul_mod]

/-- What the masks and shifts of a byte are worth. -/
theorem byte_parts (a : UInt8) :
    (a &&& 0xfc) >>> 2 = .ofNat (a.toNat / 4) ∧ a &&& 0x03 = .ofNat (a.toNat % 4) ∧
      (a &&& 0xf0) >>> 4 = .ofNat (a.toNat / 16) ∧ a &&& 0x0f = .ofNat (a.toNat % 16) ∧
      (a &&& 0xc0) >>> 6 = .ofNat (a.toNat / 64) ∧ a &&& 0x3f = .ofNat (a.toNat % 64) := by
  have ha := a.toNat_lt
  have hdiv {j i : Nat} (h : a.toNat / 2 ^ j < 2 ^ i) : a.toNat / 2 ^ j % 2 ^ i = a.toNat / 2 ^ j :=
    Nat.mod_eq_of_lt h
  refine ⟨?_, and_low (i := 2) rfl a, ?_, and_low (i := 4) rfl a, ?_, and_low (i := 6) rfl a⟩
  · exact (and_high (j := 2) (i := 6) rfl rfl a).trans (congrArg _ (hdiv (by omega)))
  · exact (and_high (j := 4) (i := 4) rfl rfl a).trans (congrArg _ (hdiv (by omega)))
  · exact (and_high (j := 6) (i := 2) rfl rfl a).trans (congrArg _ (hdiv (by omega)))

/-- The bytes of a digit, as the decoder takes it apart. -/
theorem digit_parts {n : Nat} (hn : n < 64) : UInt8.ofNat n <<< 2 = .ofNat (n * 4) ∧
    (UInt8.ofNat n &&& 0x30) >>> 4 = .ofNat (n / 16) ∧ (UInt8.ofNat n &&& 0x0f) <<< 4 = .ofNat (n % 16 * 16) ∧
    (UInt8.ofNat n &&& 0x3c) >>> 2 = .ofNat (n / 4) ∧ (UInt8.ofNat n &&& 0x03) <<< 6 = .ofNat (n % 4 * 64) := by
  have hto : (UInt8.ofNat n).toNat = n := by
    rw [UInt8.toNat_ofNat', Nat.mod_eq_of_lt (by omega)]
  refine ⟨ofNat_shiftLeft rfl n, ?_, ?_, ?_, ?_⟩
  · rw [and_high (j := 4) (i := 2) rfl rfl, hto, Nat.mod_eq_of_lt (by omega)]
    rfl
  · rw [and_low (i := 4) rfl, hto, ofNat_shiftLeft rfl]
    rfl
  · rw [and_high (j := 2) (i := 4) rfl rfl, hto, Nat.mod_eq_of_lt (by omega)]
    rfl
  · rw [and_low (i := 2) rfl, hto, ofNat_shiftLeft rfl]
    rfl

/-- The four digits as numbers. -/
theorem sextets_eq (a0 a1 a2 : UInt8) : sextets a0 a1 a2 =
    (.ofNat (a0.toNat / 4), .ofNat (a0.toNat % 4 * 16 + a1.toNat / 16),
      .ofNat (a1.toNat % 16 * 4 + a2.toNat / 64), .ofNat (a2.toNat % 64)) := by
  obtain ⟨p0, p1, -⟩ := byte_parts a0
  obtain ⟨-, -, q0, q1, -⟩ := byte_parts a1
  obtain ⟨-, -, -, -, r0, r1⟩ := byte_parts a2
  rw [sextets, p0, p1, q0, q1, r0, r1, ofNat_shiftLeft rfl, ofNat_shiftLeft rfl, ← UInt8.ofNat_add,
    ← UInt8.ofNat_add]
  rfl

/-- The three bytes of four digits as numbers. -/
theorem octets_eq {n0 n1 n2 n3 : Nat} (h0 : n0 < 64) (h1 : n1 < 64) (h2 : n2 < 64) :
    octets (.ofNat n0) (.ofNat n1) (.ofNat n2) (.ofNat n3) =
      (.ofNat (n0 * 4 + n1 / 16), .ofNat (n1 % 16 * 16 + n2 / 4), .ofNat (n2 % 4 * 64 + n3)) := by
  obtain ⟨p, -⟩ := digit_parts h0
  obtain ⟨-, q0, q1, -⟩ := digit_parts h1
  obtain ⟨-, -, -, r0, r1⟩ := digit_parts h2
  rw [octets, p, q0, q1, r0, r1, ← UInt8.ofNat_add, ← UInt8.ofNat_add, ← UInt8.ofNat_add]

/-- Taking three bytes apart and putting them together again. -/
theorem octets_sextets (a0 a1 a2 : UInt8) :
    octets (sextets a0 a1 a2).1 (sextets a0 a1 a2).2.1 (sextets a0 a1 a2).2.2.1
      (sextets a0 a1 a2).2.2.2 = (a0, a1, a2) := by
  have h0 := a0.toNat_lt
  have h1 := a1.toNat_lt
  have h2 := a2.toNat_lt
  rw [sextets_eq, octets_eq (by omega) (by omega) (by omega)]
  rw [show a0.toNat / 4 * 4 + (a0.toNat % 4 * 16 + a1.toNat / 16) / 16 = a0.toNat by omega,
    show (a0.toNat % 4 * 16 + a1.toNat / 16) % 16 * 16 + (a1.toNat % 16 * 4 + a2.toNat / 64) / 4 =
      a1.toNat by omega,
    show (a1.toNat % 16 * 4 + a2.toNat / 64) % 4 * 64 + a2.toNat % 64 = a2.toNat by omega]
  simp only [UInt8.ofNat_toNat]

/-- The digits are digits. -/
theorem sextets_lt (a0 a1 a2 : UInt8) : (sextets a0 a1 a2).1 < 64 ∧ (sextets a0 a1 a2).2.1 < 64 ∧
    (sextets a0 a1 a2).2.2.1 < 64 ∧ (sextets a0 a1 a2).2.2.2 < 64 := by
  have h0 := a0.toNat_lt
  have h1 := a1.toNat_lt
  have h2 := a2.toNat_lt
  have hlt (n : Nat) (hn : n < 64) : UInt8.ofNat n < 64 := by
    rw [UInt8.lt_iff_toNat_lt, UInt8.toNat_ofNat']
    exact (Nat.mod_le _ _).trans_lt hn
  rw [sextets_eq]
  exact ⟨hlt _ (by omega), hlt _ (by omega), hlt _ (by omega), hlt _ (by omega)⟩

/-- Reading back the character of a digit. -/
theorem takeWhile_char {b : UInt8} (h : b < 64) (rest : CString) :
    ((base64Char b :: rest).takeWhile (· ≠ 61)).map base64Digit =
      b :: (rest.takeWhile (· ≠ 61)).map base64Digit := by
  obtain ⟨hne, hdigit⟩ := base64Char_spec h
  rw [List.takeWhile_cons_of_pos (by simpa using hne), List.map_cons, hdigit]

theorem takeWhile_padding (rest : CString) :
    (((61 : UInt8) :: rest).takeWhile (· ≠ 61)).map base64Digit = [] := by
  rw [List.takeWhile_cons_of_neg (by simp), List.map_nil]

/-- **Base64 round trip.** -/
theorem base64_roundtrip : ∀ s : CString, base64Decode (base64Encode s) = s
  | a0 :: a1 :: a2 :: rest => by
    obtain ⟨h0, h1, h2, h3⟩ := sextets_lt a0 a1 a2
    have hbytes := octets_sextets a0 a1 a2
    have ih := base64_roundtrip rest
    unfold base64Decode at ih ⊢
    simp only [base64Encode, takeWhile_char h0, takeWhile_char h1, takeWhile_char h2,
      takeWhile_char h3, decodeDigits, hbytes, ih]
  | [a0, a1] => by
    obtain ⟨h0, h1, h2, -⟩ := sextets_lt a0 a1 0
    have hbytes := octets_sextets a0 a1 0
    have hlast : (sextets a0 a1 0).2.2.2 = 0 := rfl
    rw [hlast] at hbytes
    simp only [base64Decode, base64Encode, takeWhile_char h0, takeWhile_char h1, takeWhile_char h2,
      takeWhile_padding, decodeDigits, hbytes]
  | [a0] => by
    obtain ⟨h0, h1, -, -⟩ := sextets_lt a0 0 0
    have hbytes := octets_sextets a0 0 0
    have hlast : (sextets a0 0 0).2.2.2 = 0 := rfl
    have hthird : (sextets a0 0 0).2.2.1 = 0 := rfl
    rw [hlast, hthird] at hbytes
    simp only [base64Decode, base64Encode, takeWhile_char h0, takeWhile_char h1, takeWhile_padding,
      decodeDigits, hbytes]
  | [] => rfl

example : base64Encode "/sirah" = CString.ofString "L3NpcmFo" := by decide +kernel

end Sirah.Etcd
