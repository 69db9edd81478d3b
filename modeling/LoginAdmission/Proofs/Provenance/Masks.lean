/-
  Where the mask of a subnet comes from: an address text with a number, a text, or a row.

  A subnet carries the bounds of its mask. So there is one for a raw pair only if the bounds were
  checked, and its mask is the number that was checked. `Subnet.MadeOf` says so of a raw pair, and
  `MaskFault` what is wrong with the others.

  Main statements: `Subnet.make_eq_ok_iff`, `Subnet.parse_eq_ok_iff` and
  `Storage.Row.makes_of_entry`.
-/
import LoginAdmission.Proofs.Address.SubnetText
import LoginAdmission.Proofs.Except
import LoginAdmission.Storage.Database

namespace LoginAdmission

/-- A number of leading bits that the members of a block can share: at least one, and not all. -/
def IsMask (m : Nat) : Prop := 1 ≤ m ∧ m ≤ 31

/-- What is wrong with a number that is no mask. -/
inductive MaskFault : Nat → InvalidInput → Prop
  | missing : MaskFault 0 .missingMask
  | outOfRange {m : Nat} (h : 31 < m) : MaskFault m (.maskOutOfRange m)

namespace Subnet

/-- The raw pair of an address text and a number is that of the subnet, and the number is a mask. -/
def MadeOf (s : Subnet) (ip : String) (m : Nat) : Prop := IsMask m ∧ ip = s.ip.text ∧ m = s.mask

variable {s : Subnet} {ip : Address} {m : Nat} {e : InvalidInput}

theorem madeOf_self (s : Subnet) : s.MadeOf s.ip.text s.mask := ⟨⟨s.mask_pos, s.mask_le⟩, rfl, rfl⟩

/-! ## Pairs -/

/-- The bounds are checked before anything is made. -/
theorem ofMask_eq_ok_iff : ofMask ip m = .ok s ↔ IsMask m ∧ ip = s.ip ∧ m = s.mask := by
  constructor
  · intro h
    unfold ofMask at h
    split at h
    · cases h
    · split at h
      · next hbounds =>
        obtain rfl := Except.ok.inj h
        exact ⟨hbounds, rfl, rfl⟩
      · cases h
  · rintro ⟨-, rfl, rfl⟩
    exact ofMask_mask s

theorem ofMask_eq_error_iff : ofMask ip m = .error e ↔ MaskFault m e := by
  constructor
  · intro h
    unfold ofMask at h
    split at h
    · next hzero =>
      subst hzero
      cases h
      exact .missing
    · split at h
      · cases h
      · next hzero hbounds =>
        cases h
        exact .outOfRange (by omega)
  · intro h
    cases h with
    | missing => rfl
    | outOfRange hlarge => rw [ofMask, if_neg (by omega), dif_neg (by omega)]

/-- A subnet is made of the text of its address and of its mask, and of no other pair. -/
theorem make_eq_ok_iff {text : String} {mask : UInt8} :
    make text mask = .ok s ↔ s.MadeOf text mask.toNat := by
  unfold make
  cases haddress : Address.parse text with
  | ok a =>
    obtain rfl := Address.parse_eq_ok_iff.mp haddress
    have htext : a = s.ip ↔ a.text = s.ip.text := ⟨congrArg _, fun h => Address.text_injective h⟩
    rw [MadeOf, ← htext]
    exact ofMask_eq_ok_iff
  | error e =>
    refine iff_of_false nofun fun h => ?_
    rw [h.2.1, Address.parse_text] at haddress
    cases haddress

/-- Of a pair with the text of an address only the number can be at fault. -/
theorem make_text_eq_error_iff {mask : UInt8} :
    make ip.text mask = .error e ↔ MaskFault mask.toNat e := by
  unfold make
  rw [Address.parse_text]
  exact ofMask_eq_error_iff

example : make "0.0.0.0" 0 = .error .missingMask := by decide

/-! ## Texts -/

/-- A subnet is read from the texts that give its address and its mask. -/
theorem parse_eq_ok_iff {text : String} :
    parse text = .ok s ↔ ∃ ip m, Given text ip m ∧ s.MadeOf ip.text m := by
  constructor
  · intro h
    exact ⟨s.ip, s.mask, given_of_parse h, s.madeOf_self⟩
  · rintro ⟨ip, m, hgiven, ⟨hpos, hle⟩, htext, rfl⟩
    obtain rfl := Address.text_injective htext
    exact parse_of_given hgiven hpos hle

end Subnet

/-! ## Rows -/

namespace Storage.Row

/-- The columns of a row are a pair that the subnet is made of. -/
def Makes (r : Row) (s : Subnet) : Prop :=
  ∃ ip, ∃ m : Nat, r.ip = .text ip ∧ r.mask = .integer m ∧ s.MadeOf ip m

theorem ip_of_ipText {r : Row} {ip : String} (h : r.ipText = .ok ip) : r.ip = .text ip := by
  unfold ipText at h
  split at h
  · next heq => rw [heq, Except.ok.inj h]
  · cases h

theorem mask_of_maskNumber {r : Row} {n : Int} (h : r.maskNumber = .ok n) :
    r.mask = .integer n := by
  unfold maskNumber at h
  split at h
  · next heq => rw [heq, Except.ok.inj h]
  · cases h

/-- A row that is read as an entry makes its subnet. -/
theorem makes_of_entry {list : AccessList} {r : Row} {e : Entry} (h : r.entry list = .ok e) :
    r.Makes e.subnet := by
  unfold entry at h
  obtain ⟨ip, hip, h⟩ := exists_of_bind h
  obtain ⟨n, hn, h⟩ := exists_of_bind h
  have hrange : ¬ (n < 0 ∨ 255 < n) := by
    intro hrange
    rw [if_pos hrange] at h
    cases h
  rw [if_neg hrange] at h
  cases hmake : Subnet.make ip (UInt8.ofNat n.toNat) with
  | error fault =>
    rw [hmake] at h
    cases h
  | ok subnet =>
    rw [hmake] at h
    have hsubnet : e.subnet = subnet := by
      dsimp only at h
      split at h
      · cases h
      · rw [← Except.ok.inj h]
    have hmade := Subnet.make_eq_ok_iff.mp hmake
    have hbyte : (UInt8.ofNat n.toNat).toNat = n.toNat := by
      rw [UInt8.toNat_ofNat']
      omega
    have hnumber : n = (n.toNat : Int) := by omega
    rw [hbyte, ← hsubnet] at hmade
    exact ⟨ip, n.toNat, ip_of_ipText hip, hnumber ▸ mask_of_maskNumber hn, hmade⟩

end Storage.Row

end LoginAdmission
