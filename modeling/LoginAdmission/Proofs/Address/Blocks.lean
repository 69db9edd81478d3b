/-
  Blocks of addresses, told by numbers.

  The mask of a subnet keeps the leading bits of a word in their places. As numbers, two addresses
  are in the same block of `2 ^ k` addresses when both divided by `2 ^ k` give the same quotient.
  Main statements: `Subnet.contains_iff` and `Entry.covers_iff`.
-/
import Mathlib.Algebra.Group.Nat.Defs
import LoginAdmission.Subnet

namespace LoginAdmission

namespace Subnet

/-- A mask is never too short for the shift. -/
theorem shiftedLeft_mask (s : Subnet) (w : BitVec 32) :
    shiftedLeft? w (32 - s.mask) = some (w <<< (32 - s.mask)) := by
  have hpos := s.mask_pos
  rw [shiftedLeft?, if_pos (by omega)]

/-- A word under the mask keeps its leading bits and loses the others. -/
theorem and_netmask (s : Subnet) (x : BitVec 32) :
    x &&& s.netmask = (x >>> (32 - s.mask)) <<< (32 - s.mask) := by
  refine BitVec.eq_of_getLsbD_eq fun i hi => ?_
  simp only [netmask, shiftedLeft_mask, Option.getD_some, BitVec.getLsbD_and,
    BitVec.getLsbD_shiftLeft, BitVec.getLsbD_allOnes, BitVec.getLsbD_ushiftRight]
  by_cases h : i < 32 - s.mask
  · simp [h]
  · have hplace : 32 - s.mask + (i - (32 - s.mask)) = i := by omega
    have hshort : i - (32 - s.mask) < 32 := by omega
    simp [h, hi, hplace, hshort]

theorem toNat_and_netmask (s : Subnet) (x : BitVec 32) :
    (x &&& s.netmask).toNat = x.toNat / 2 ^ (32 - s.mask) * 2 ^ (32 - s.mask) := by
  rw [and_netmask, BitVec.toNat_shiftLeft, BitVec.toNat_ushiftRight, Nat.shiftLeft_eq,
    Nat.shiftRight_eq_div_pow]
  exact Nat.mod_eq_of_lt (Nat.lt_of_le_of_lt (Nat.div_mul_le_self _ _) x.isLt)

/-- A subnet covers the addresses of its block. -/
theorem contains_iff (s : Subnet) (a : Address) :
    s.contains a = true ↔
      a.number / 2 ^ (32 - s.mask) = s.ip.number / 2 ^ (32 - s.mask) := by
  unfold contains Address.number
  rw [beq_iff_eq, ← BitVec.toNat_inj, toNat_and_netmask, toNat_and_netmask]
  exact Nat.mul_right_cancel_iff (Nat.two_pow_pos _)

end Subnet

/-- Entries cover an address if the subnet of one of them does. -/
theorem Entry.covers_iff {a : Address} {entries : List Entry} :
    Entry.covers a entries = true ↔ ∃ e ∈ entries, e.subnet.contains a = true := by
  unfold covers findContaining
  exact List.find?_isSome

end LoginAdmission
