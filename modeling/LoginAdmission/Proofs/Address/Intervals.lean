/-
  Blocks of addresses as intervals.

  A block begins at a multiple of its size and holds as many addresses as its mask leaves free, so
  the blocks of all subnets form a tree: two of them are disjoint, or one lies inside the other.

  Main statement: `block_law`. It rests on `Subnet.contains_iff`, which tells membership by
  quotients: a longer mask divides further, so quotients that agree for it agree for a shorter one.
-/
import Mathlib.Data.Set.Card
import Mathlib.Order.CompletePartialOrder
import Mathlib.Order.Interval.Finset.Nat
import LoginAdmission.Proofs.Address.Blocks

namespace LoginAdmission

namespace Subnet

/-- The addresses that a subnet covers. -/
def block (s : Subnet) : Set Address := {a | s.contains a = true}

/-- The number of addresses that the mask leaves free. -/
def size (s : Subnet) : Nat := 2 ^ (32 - s.mask)

end Subnet

/-- What the block of a subnet is, told by numbers. -/
structure BlockLaw (s : Subnet) : Prop where
  /-- A block begins at the largest multiple of its size that is not above the address it was given
  by. -/
  network : IsGreatest {n | s.size ∣ n ∧ n ≤ s.ip.number} s.network.number
  /-- Its last number is still one of an address. -/
  fits : s.network.number + (s.size - 1) < 2 ^ 32
  /-- It holds the addresses from its first to its last number. -/
  contains : ∀ a, s.contains a = true ↔
    s.network.number ≤ a.number ∧ a.number ≤ s.network.number + (s.size - 1)
  /-- It has as many members as its size says. -/
  card : s.block.ncard = s.size
  /-- Only the leading bits of the address matter. -/
  leading : ∀ t : Subnet, t.mask = s.mask →
    (∀ i < s.mask, t.ip.bits.getMsbD i = s.ip.bits.getMsbD i) → t.block = s.block
  /-- Two blocks share no address, or the one with the longer mask lies inside the other. -/
  nested : ∀ t : Subnet, Disjoint s.block t.block ∨
    (s.mask ≤ t.mask → t.block ⊆ s.block) ∧ (t.mask ≤ s.mask → s.block ⊆ t.block)
  /-- Two blocks are the same if they have the same mask and begin at the same address. -/
  equal : ∀ t : Subnet, s.block = t.block ↔ s.mask = t.mask ∧ s.network = t.network
  /-- Some other pair has the same block. -/
  shared : ∃ t : Subnet, t ≠ s ∧ t.block = s.block

theorem Address.number_injective : Function.Injective Address.number := fun a b h => by
  cases a
  cases b
  exact congrArg Address.mk (BitVec.eq_of_toNat_eq h)

/-- Every number of 32 bits is the number of an address. -/
theorem Address.exists_number {n : Nat} (h : n < 2 ^ 32) : ∃ a : Address, a.number = n :=
  ⟨⟨BitVec.ofNat 32 n⟩, (BitVec.toNat_ofNat n 32).trans (Nat.mod_eq_of_lt h)⟩

namespace Subnet

variable (s : Subnet)

theorem size_pos : 0 < s.size := Nat.two_pow_pos _

/-- No block is a single address. -/
theorem one_lt_size : 1 < s.size := by
  have hle := s.mask_le
  exact Nat.one_lt_two_pow (by omega)

theorem number_network : s.network.number = s.ip.number / s.size * s.size :=
  s.toNat_and_netmask s.ip.bits

theorem mem_block {a : Address} : a ∈ s.block ↔ a.number / s.size = s.ip.number / s.size :=
  s.contains_iff a

/-- The quotient of an address leaves room for a whole block behind the network. -/
theorem network_add_size_le : s.network.number + s.size ≤ 2 ^ 32 := by
  have hmask : 2 ^ s.mask * s.size = 2 ^ 32 := by
    have hle := s.mask_le
    rw [size, ← Nat.pow_add]
    congr 1
    omega
  have hquotient : s.ip.number / s.size < 2 ^ s.mask := by
    rw [Nat.div_lt_iff_lt_mul s.size_pos, hmask]
    exact s.ip.number_lt
  calc s.network.number + s.size
      = (s.ip.number / s.size + 1) * s.size := by rw [number_network, Nat.succ_mul]
    _ ≤ 2 ^ s.mask * s.size := Nat.mul_le_mul_right _ hquotient
    _ = 2 ^ 32 := hmask

theorem isGreatest_network : IsGreatest {n | s.size ∣ n ∧ n ≤ s.ip.number} s.network.number := by
  rw [number_network]
  refine ⟨⟨Nat.dvd_mul_left _ _, Nat.div_mul_le_self _ _⟩, ?_⟩
  rintro _ ⟨⟨c, rfl⟩, hle⟩
  rw [Nat.mul_comm]
  exact Nat.mul_le_mul_right _ ((Nat.le_div_iff_mul_le s.size_pos).mpr (by rwa [Nat.mul_comm]))

/-- The numbers with one quotient are those from a multiple of the size to before the next. -/
theorem mem_block_iff_between {a : Address} : a ∈ s.block ↔
    s.network.number ≤ a.number ∧ a.number ≤ s.network.number + (s.size - 1) := by
  have hpos := s.size_pos
  rw [mem_block, Nat.div_eq_iff hpos, number_network]
  omega

theorem image_block :
    Address.number '' s.block =
      Finset.Icc s.network.number (s.network.number + (s.size - 1)) := by
  have hpos := s.size_pos
  have hroom := s.network_add_size_le
  ext n
  rw [Finset.mem_coe, Finset.mem_Icc]
  constructor
  · rintro ⟨a, ha, rfl⟩
    exact s.mem_block_iff_between.mp ha
  · intro hn
    obtain ⟨a, rfl⟩ := Address.exists_number (n := n) (by omega)
    exact ⟨a, s.mem_block_iff_between.mpr hn, rfl⟩

theorem ncard_block : s.block.ncard = s.size := by
  have hpos := s.size_pos
  rw [← Set.ncard_image_of_injective _ Address.number_injective, image_block,
    Set.ncard_coe_finset, Nat.card_Icc]
  omega

theorem network_mem_block : s.network ∈ s.block :=
  s.mem_block_iff_between.mpr ⟨Nat.le_refl _, Nat.le_add_right _ _⟩

variable {s} {t : Subnet}

/-- Addresses that agree in their leading bits have the same quotient. -/
theorem block_eq_of_leading (hmask : t.mask = s.mask)
    (hbits : ∀ i < s.mask, t.ip.bits.getMsbD i = s.ip.bits.getMsbD i) : t.block = s.block := by
  have hsize : t.size = s.size := by rw [size, size, hmask]
  have hshift : t.ip.bits >>> (32 - s.mask) = s.ip.bits >>> (32 - s.mask) := by
    refine BitVec.eq_of_getMsbD_eq fun i hi => ?_
    rw [BitVec.getMsbD_ushiftRight, BitVec.getMsbD_ushiftRight]
    by_cases hfill : i < 32 - s.mask
    · simp [hfill]
    · rw [hbits (i - (32 - s.mask)) (by omega)]
  have hquotient := congrArg BitVec.toNat hshift
  rw [BitVec.toNat_ushiftRight, BitVec.toNat_ushiftRight, Nat.shiftRight_eq_div_pow,
    Nat.shiftRight_eq_div_pow] at hquotient
  ext a
  rw [mem_block, mem_block, hsize]
  exact Eq.congr_right hquotient

/-- A longer mask divides the block of a shorter one. -/
theorem block_subset_of_mem (hmask : s.mask ≤ t.mask) {a : Address} (hs : a ∈ s.block)
    (ht : a ∈ t.block) : t.block ⊆ s.block := by
  have hle := t.mask_le
  have hsize : s.size = t.size * 2 ^ (t.mask - s.mask) := by
    rw [size, size, ← Nat.pow_add]
    congr 1
    omega
  intro b hb
  rw [mem_block] at hs ht hb ⊢
  rw [← hs, hsize, ← Nat.div_div_eq_div_mul, ← Nat.div_div_eq_div_mul, hb, ht]

theorem disjoint_or_nested (s t : Subnet) : Disjoint s.block t.block ∨
    (s.mask ≤ t.mask → t.block ⊆ s.block) ∧ (t.mask ≤ s.mask → s.block ⊆ t.block) := by
  by_cases hshared : ∃ a, a ∈ s.block ∧ a ∈ t.block
  · obtain ⟨a, hs, ht⟩ := hshared
    exact .inr ⟨fun h => block_subset_of_mem h hs ht, fun h => block_subset_of_mem h ht hs⟩
  · exact .inl (Set.disjoint_left.mpr fun a hs ht => hshared ⟨a, hs, ht⟩)

/-- A block shows its mask by its size and its network by its least number. -/
theorem block_eq_iff : s.block = t.block ↔ s.mask = t.mask ∧ s.network = t.network := by
  constructor
  · intro h
    have hsize : s.size = t.size := by rw [← ncard_block, ← ncard_block, h]
    have hmask := Nat.pow_right_injective (Nat.le_refl 2) hsize
    have hs := s.mask_le
    have ht := t.mask_le
    have hle := (t.mem_block_iff_between.mp (h ▸ s.network_mem_block)).1
    have hge := (s.mem_block_iff_between.mp (h ▸ t.network_mem_block)).1
    exact ⟨by omega, Address.number_injective (Nat.le_antisymm hge hle)⟩
  · rintro ⟨hmask, hnetwork⟩
    have hsize : s.size = t.size := by rw [size, size, hmask]
    ext a
    rw [mem_block_iff_between, mem_block_iff_between, hsize, hnetwork]

/-- Any other member of a block gives the same block. -/
theorem exists_ne_block_eq (s : Subnet) : ∃ t : Subnet, t ≠ s ∧ t.block = s.block := by
  obtain ⟨a, ha, hne⟩ := Set.exists_ne_of_one_lt_ncard (s.ncard_block ▸ s.one_lt_size) s.ip
  refine ⟨⟨a, s.mask, s.mask_pos, s.mask_le⟩, fun h => hne (congrArg ip h), ?_⟩
  ext b
  rw [mem_block] at ha ⊢
  rw [mem_block, ← ha]
  rfl

end Subnet

/-- Blocks are aligned intervals of addresses, and nest. -/
theorem block_law (s : Subnet) : BlockLaw s where
  network := s.isGreatest_network
  fits := by
    have hpos := s.size_pos
    have hroom := s.network_add_size_le
    omega
  contains _ := s.mem_block_iff_between
  card := s.ncard_block
  leading _ := Subnet.block_eq_of_leading
  nested := s.disjoint_or_nested
  equal _ := Subnet.block_eq_iff
  shared := s.exists_ne_block_eq

end LoginAdmission
