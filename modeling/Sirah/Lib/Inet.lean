import Sirah.Lib.CString

/-!
# IPv4 addresses as C programs hold them

A `uint32_t` in network byte order is the word whose bytes in memory are the four octets of the
address, first octet first; read as a number on a little-endian host, the first octet is the least
significant. `ntohl` (and `htonl`, the same function) gives the number whose most significant octet is
the first one, so that consecutive numbers are consecutive addresses.

* `ntohl_ntohl`: the byte swap undoes itself; `htonl_inj` follows.
* `addr_or`: the addresses of words without a common bit add up.
* `inetPton`, `inetNtop`: the dotted texts, with the strict decimal octets of `inet_pton`.
-/

namespace Inet

/-- Byte `i` of a word in memory. -/
def octet (x : UInt32) (i : Nat) : Nat := x.toNat / 2 ^ (8 * i) % 256

/-- The word whose bytes in memory are `a b c d`. -/
def ofOctets (a b c d : Nat) : UInt32 := .ofNat (a + b * 2 ^ 8 + c * 2 ^ 16 + d * 2 ^ 24)

/-- `ntohl`: the bytes in the other order. -/
def ntohl (x : UInt32) : UInt32 := ofOctets (octet x 3) (octet x 2) (octet x 1) (octet x 0)

/-- `htonl`. -/
def htonl (x : UInt32) : UInt32 := ntohl x

theorem octet_lt (x : UInt32) (i : Nat) : octet x i < 256 := Nat.mod_lt _ (by decide)

theorem toNat_ofOctets {a b c d : Nat} (ha : a < 256) (hb : b < 256) (hc : c < 256) (hd : d < 256) :
    (ofOctets a b c d).toNat = a + b * 2 ^ 8 + c * 2 ^ 16 + d * 2 ^ 24 := by
  simp only [ofOctets, UInt32.toNat_ofNat']
  omega

theorem octet_ofOctets {a b c d : Nat} (ha : a < 256) (hb : b < 256) (hc : c < 256) (hd : d < 256) :
    octet (ofOctets a b c d) 0 = a ∧ octet (ofOctets a b c d) 1 = b ∧
      octet (ofOctets a b c d) 2 = c ∧ octet (ofOctets a b c d) 3 = d := by
  simp only [octet, toNat_ofOctets ha hb hc hd]
  omega

theorem ofOctets_octet (x : UInt32) :
    ofOctets (octet x 0) (octet x 1) (octet x 2) (octet x 3) = x := by
  have hx := x.toNat_lt
  rw [← UInt32.toNat_inj,
    toNat_ofOctets (octet_lt x 0) (octet_lt x 1) (octet_lt x 2) (octet_lt x 3)]
  simp only [octet]
  omega

@[simp] theorem ntohl_ntohl (x : UInt32) : ntohl (ntohl x) = x := by
  obtain ⟨h0, h1, h2, h3⟩ :=
    octet_ofOctets (octet_lt x 3) (octet_lt x 2) (octet_lt x 1) (octet_lt x 0)
  rw [ntohl, ntohl, h0, h1, h2, h3, ofOctets_octet]

@[simp] theorem ntohl_htonl (x : UInt32) : ntohl (htonl x) = x := ntohl_ntohl x

@[simp] theorem htonl_ntohl (x : UInt32) : htonl (ntohl x) = x := ntohl_ntohl x

theorem htonl_inj {x y : UInt32} : htonl x = htonl y ↔ x = y := by
  constructor
  · intro h
    rw [← ntohl_htonl x, h, ntohl_htonl]
  · rintro rfl
    rfl

/-- The address a word in network byte order denotes. -/
def addr (w : UInt32) : Nat := (ntohl w).toNat

theorem addr_lt (w : UInt32) : addr w < 2 ^ 32 := (ntohl w).toNat_lt

@[simp] theorem addr_htonl (x : UInt32) : addr (htonl x) = x.toNat := by
  rw [addr, ntohl_htonl]

theorem addr_inj {v w : UInt32} : addr v = addr w ↔ v = w := by
  constructor
  · intro h
    rw [← htonl_ntohl v, UInt32.toNat_inj.mp h, htonl_ntohl]
  · rintro rfl
    rfl

/-! ## Words without a common bit -/

/-- Numbers without a common bit add up. -/
theorem or_eq_add {x y : Nat} (h : x &&& y = 0) : x ||| y = x + y := by
  induction x using Nat.strong_induction_on generalizing y with
  | _ x ih =>
    rcases Nat.eq_zero_or_pos x with rfl | hx
    · simp
    · have hhigh : x / 2 ^ 1 ||| y / 2 ^ 1 = x / 2 ^ 1 + y / 2 ^ 1 := by
        refine ih (x / 2 ^ 1) (Nat.div_lt_self hx (by decide)) ?_
        rw [← Nat.and_div_two_pow, h, Nat.zero_div]
      have hlow : x % 2 ^ 1 ||| y % 2 ^ 1 = x % 2 ^ 1 + y % 2 ^ 1 := by
        have hand : x % 2 ^ 1 &&& y % 2 ^ 1 = 0 := by rw [← Nat.and_mod_two_pow, h, Nat.zero_mod]
        rcases Nat.mod_two_eq_zero_or_one x with hx2 | hx2 <;>
          rcases Nat.mod_two_eq_zero_or_one y with hy2 | hy2 <;> simp_all
      rw [← Nat.or_div_two_pow] at hhigh
      rw [← Nat.or_mod_two_pow] at hlow
      omega

theorem octet_or (a b : UInt32) (i : Nat) : octet (a ||| b) i = octet a i ||| octet b i := by
  simp only [octet, UInt32.toNat_or, Nat.or_div_two_pow]
  exact Nat.or_mod_two_pow (n := 8)

/-- The addresses of words without a common bit add up. -/
theorem addr_or {a b : UInt32} (h : a &&& b = 0) : addr (a ||| b) = addr a + addr b := by
  have hoctet : ∀ i, octet (a ||| b) i = octet a i + octet b i := by
    intro i
    rw [octet_or]
    refine or_eq_add ?_
    have hand : a.toNat &&& b.toNat = 0 := by rw [← UInt32.toNat_and, h, UInt32.toNat_zero]
    have hmod := Nat.and_mod_two_pow (a := a.toNat / 2 ^ (8 * i)) (b := b.toNat / 2 ^ (8 * i)) (n := 8)
    rw [← Nat.and_div_two_pow, hand, Nat.zero_div, Nat.zero_mod] at hmod
    exact hmod.symm
  have haddr : ∀ x, addr x = octet x 3 + octet x 2 * 2 ^ 8 + octet x 1 * 2 ^ 16 + octet x 0 * 2 ^ 24 :=
    fun x => toNat_ofOctets (octet_lt x 3) (octet_lt x 2) (octet_lt x 1) (octet_lt x 0)
  rw [haddr, haddr a, haddr b, hoctet, hoctet, hoctet, hoctet]
  omega

/-! ## Texts -/

/-- One octet of a dotted text: decimal digits without a leading zero, at most 255. -/
def readOctet (s : CString) : Option Nat :=
  if s ≠ [] ∧ s.all (fun c => 48 ≤ c && c ≤ 57) ∧ (s.head? = some 48 → s.length = 1) then
    let n := s.foldl (fun n c => n * 10 + (c.toNat - 48)) 0
    if n ≤ 255 then some n else none
  else none

/-- `inet_pton(AF_INET, ...)`, in network byte order. -/
def inetPton (s : CString) : Option UInt32 :=
  match CString.splitOn 46 s with
  | [a, b, c, d] => do
    let a ← readOctet a
    let b ← readOctet b
    let c ← readOctet c
    let d ← readOctet d
    return ofOctets a b c d
  | _ => none

/-- `inet_ntop(AF_INET, ...)`. -/
def inetNtop (w : UInt32) : CString :=
  CString.ofNat (octet w 0) ++ "." ++ CString.ofNat (octet w 1) ++ "." ++ CString.ofNat (octet w 2) ++
    "." ++ CString.ofNat (octet w 3)

/-- The digits of an octet: what `inet_pton` reads back, and neither a dot nor a slash. -/
theorem readOctet_ofNat : ∀ n < 256, readOctet (CString.ofNat n) = some n ∧
    46 ∉ CString.ofNat n ∧ 47 ∉ CString.ofNat n := by
  intro n hn
  have hdigits : ∀ c ∈ CString.ofNat n, (48 : UInt8) ≤ c ∧ c ≤ 57 := fun c hc => CString.mem_ofNat hc
  refine ⟨?_, fun h => absurd (hdigits 46 h) (by decide), fun h => absurd (hdigits 47 h) (by decide)⟩
  have hall : (CString.ofNat n).all (fun c => 48 ≤ c && c ≤ 57) = true := by
    rw [List.all_eq_true]
    intro c hc
    rw [Bool.and_eq_true, decide_eq_true_eq, decide_eq_true_eq]
    exact hdigits c hc
  rw [readOctet, if_pos ⟨CString.ofNat_ne_nil n, hall, CString.length_ofNat_of_head⟩, CString.foldl_ofNat]
  exact if_pos (Nat.le_of_lt_succ hn)

theorem dot_eq : (("." : String) : CString) = [46] := by decide

theorem slash_not_mem_inetNtop (w : UInt32) : 47 ∉ inetNtop w := by
  have h := fun i => (readOctet_ofNat (octet w i) (octet_lt w i)).2.2
  simp [inetNtop, dot_eq, h]

/-- **The dotted text reads back.** -/
theorem inetPton_inetNtop (w : UInt32) : inetPton (inetNtop w) = some w := by
  have h := fun i => readOctet_ofNat (octet w i) (octet_lt w i)
  have hsplit : CString.splitOn 46 (inetNtop w) =
      [CString.ofNat (octet w 0), CString.ofNat (octet w 1), CString.ofNat (octet w 2),
        CString.ofNat (octet w 3)] := by
    simp only [inetNtop, dot_eq, List.append_assoc, List.cons_append, List.nil_append]
    rw [CString.splitOn_append (h 0).2.1, CString.splitOn_append (h 1).2.1,
      CString.splitOn_append (h 2).2.1, CString.splitOn_of_not_mem (h 3).2.1]
  simp only [inetPton, hsplit, (h 0).1, (h 1).1, (h 2).1, (h 3).1]
  exact congrArg some (ofOctets_octet w)

example : inetPton "10.244.0.0" = some 0x0000F40A ∧ inetPton "10.244.0" = none ∧
    inetPton "10.244.00.0" = none := by decide +kernel

end Inet
