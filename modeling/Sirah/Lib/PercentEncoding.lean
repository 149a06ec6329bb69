import Sirah.Lib.CString

/-!
# Percent encoding

The text of a value in a URL: the unreserved bytes stand for themselves, any other byte is `%` and its two hexadecimal
digits.

* `encode`, with `encode_cons` for one byte of a text after the other.
* `notMem_encode`: a byte that separates does not occur in an encoded text.
-/

namespace PercentEncoding

/-- `A-Z a-z 0-9 - . _ ~` -/
def unreserved (c : UInt8) : Bool :=
  (65 ≤ c && c ≤ 90) || (97 ≤ c && c ≤ 122) || (48 ≤ c && c ≤ 57) || c = 45 || c = 46 || c = 95 || c = 126

/-- A hexadecimal digit. -/
def hexDigit (n : Nat) : UInt8 := if n < 10 then UInt8.ofNat (48 + n) else UInt8.ofNat (55 + n)

/-- What a byte is encoded as. -/
def encodeByte (c : UInt8) : CString :=
  if unreserved c then [c] else [37, hexDigit (c.toNat / 16), hexDigit (c.toNat % 16)]

def encode (s : CString) : CString := s.flatMap encodeByte

theorem encode_cons (c : UInt8) (s : CString) : encode (c :: s) = encodeByte c ++ encode s := List.flatMap_cons

theorem unreserved_hexDigit : ∀ n < 16, unreserved (hexDigit n) = true := by decide

theorem mem_encode {b : UInt8} {s : CString} (h : b ∈ encode s) : unreserved b = true ∨ b = 37 := by
  obtain ⟨c, -, hb⟩ := List.mem_flatMap.mp h
  have hlt := c.toNat_lt
  unfold encodeByte at hb
  split at hb
  · next hc =>
    rw [List.mem_singleton.mp hb]
    exact .inl hc
  · rcases List.mem_cons.mp hb with rfl | hb
    · exact .inr rfl
    · rcases List.mem_pair.mp hb with rfl | rfl
      · exact .inl (unreserved_hexDigit _ (by omega))
      · exact .inl (unreserved_hexDigit _ (by omega))

/-- **What separates is encoded.** -/
theorem notMem_encode {b : UInt8} (hb : unreserved b = false) (hpercent : b ≠ 37) (s : CString) : b ∉ encode s := by
  intro h
  rcases mem_encode h with hun | rfl
  · rw [hb] at hun
    cases hun
  · exact hpercent rfl

/-- An encoded text is no shorter. -/
theorem length_le_length_encode (s : CString) : s.length ≤ (encode s).length := by
  induction s with
  | nil => exact Nat.le_refl 0
  | cons c s ih =>
    have hpos : 1 ≤ (encodeByte c).length := by
      unfold encodeByte
      split
      · exact Nat.le_refl 1
      · exact Nat.le_add_left 1 2
    rw [encode_cons, List.length_cons, List.length_append]
    omega

end PercentEncoding
