import Sirah.Ipam.Manager

/-!
# The block of a CIDR

`parse_cidr` of `internal/ipam/ipam_manager.c` on every text `a.b.c.d/p`, with a place for the prefix length
or without one.

* The mask is built as a number, but laid over a word in network byte order: on a little-endian host it clears
  octets from the wrong end. `cidrMask_right_iff`: it selects the host bits for no prefix length but 32; for
  `p = 0` the shift is by 32.
* `*out_prefix` is stored without a test, and `ipam_manager_create` passes NULL twice.

**`block_right_iff`**: the block is right **iff** the prefix length is 32 and there is a place for it.
-/

namespace Sirah.Ipam

open Inet

/-- The text `a.b.c.d/p`. -/
def cidrText (w : UInt32) (p : Nat) : CString := inetNtop w ++ "/" ++ CString.ofNat p

/-- **The block `a.b.c.d/p`**: from the address with its low `32 - p` bits cleared, `2 ^ (32 - p)` addresses. -/
structure RightBlock (w : UInt32) (p : Nat) (start last : UInt32) : Prop where
  first : addr start = addr w / 2 ^ (32 - p) * 2 ^ (32 - p)
  final : addr last = addr start + 2 ^ (32 - p) - 1

/-! ## The mask -/

/-- **The mask selects the right host bits for `p = 32` only.** -/
theorem cidrMask_right_iff : ∀ p ≤ 32, addr (~~~cidrMask (.ofNat p)) + 1 = 2 ^ (32 - p) ↔ p = 32 := by
  decide +kernel

/-- The network part and the host bits of `parse_cidr` have no common bit. -/
theorem and_not_mask (w m : UInt32) : (w &&& m) &&& ~~~m = 0 := by
  rw [UInt32.and_assoc, UInt32.and_not_self, UInt32.and_zero]

/-- **The block is right**, exactly for a prefix length of 32 with a place to store it. -/
theorem block_right_iff (w : UInt32) {p : Nat} (hp : p ≤ 32) (hasPrefix : Bool) :
    (∃ out, parseCidrInto hasPrefix (cidrText w p) = some out ∧
      RightBlock w p out.network out.broadcast) ↔ hasPrefix = true ∧ p = 32 := by
  have hblock := Cidr.parseCidr_slash w hp
  have hadd := addr_or (and_not_mask w (cidrMask (.ofNat p)))
  constructor
  · rintro ⟨out, hout, hright⟩
    cases hasPrefix with
    | false => cases hout
    | true =>
      obtain rfl := Option.some.inj hout
      refine ⟨rfl, (cidrMask_right_iff p hp).mp ?_⟩
      have hlast := hright.final
      simp only [cidrText, hblock] at hlast
      have hpos := Nat.two_pow_pos (32 - p)
      omega
  · rintro ⟨rfl, rfl⟩
    refine ⟨_, rfl, ?_⟩
    have hones : cidrMask (.ofNat 32) = -1 := by decide
    have hw : w &&& cidrMask (.ofNat 32) = w := by rw [hones, UInt32.and_neg_one]
    rw [hw] at hblock hadd
    have hmask := (cidrMask_right_iff 32 hp).mpr rfl
    constructor
    · simp only [cidrText, hblock]
      simp
    · simp only [cidrText, hblock]
      omega

/-- A host address: `192.168.1.7/32`. -/
theorem host_block_right : ∃ out, parseCidrInto true (cidrText 0x0701A8C0 32) = some out ∧
    RightBlock 0x0701A8C0 32 out.network out.broadcast :=
  (block_right_iff 0x0701A8C0 (le_refl 32) true).mpr ⟨rfl, rfl⟩

/-- `10.244.0.0/16`: the block would end at `10.244.255.255`. The code stores `0.0.0.0` to `255.255.0.0`, or stops. -/
theorem wrong_block : ¬ ∃ hasPrefix out, parseCidrInto hasPrefix ("10.244.0.0/16" : String) = some out ∧
    RightBlock 0x0000F40A 16 out.network out.broadcast := by
  rintro ⟨hasPrefix, out, hout, hright⟩
  cases hasPrefix with
  | false => cases hout
  | true =>
    obtain rfl := Option.some.inj hout
    have hstart := hright.first
    revert hstart
    decide +kernel

end Sirah.Ipam
