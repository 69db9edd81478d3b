/-
  The dotted form of an address is read back as that address, and no other text is read at all.

  Main statements: `ofText_text` and its converse `text_of_ofText`, and what follows from them: an
  address is told by its text (`text_injective`), exactly the texts of addresses pass
  (`parse_eq_ok_iff`, `parse_of_ne_text`), and a subnet is told by the text of its address and its
  mask (`make_text`).
-/
import LoginAdmission.Subnet

namespace LoginAdmission

open Text

namespace Address

/-- The numeral of an octet is read as that octet. -/
theorem octet_numeral {n : Nat} (h : n < 256) : octet? (numeral n) = some n := by
  have hlength : (numeral n).length ≤ 3 :=
    length_numeral_le (by decide) (Nat.lt_trans h (by decide))
  have hhead : (numeral n).length = 1 ∨ (numeral n).head? ≠ some '0' := by
    by_cases h0 : n = 0
    · subst h0
      exact Or.inl rfl
    · exact Or.inr (head_numeral h0)
  have hle : n ≤ 255 := by omega
  unfold octet?
  rw [digitsValue_numeral, isDigits_numeral, if_pos]
  simpa [hlength, hle] using hhead

/-- An octet is written without a point. -/
theorem point_not_mem_numeral (n : Nat) : '.' ∉ numeral n := by
  intro h
  have hdigit := isDigit_of_mem_numeral h
  revert hdigit
  decide

/-- The four octets make up the address. -/
theorem ofOctets_octets (a : Address) :
    ofOctets (a.number / 16777216) (a.number / 65536 % 256) (a.number / 256 % 256)
      (a.number % 256) = a := by
  obtain ⟨bits⟩ := a
  have hlt := bits.isLt
  unfold ofOctets number
  rw [Address.mk.injEq]
  apply BitVec.eq_of_toNat_eq
  rw [BitVec.toNat_ofNat]
  dsimp only
  omega

theorem splitOn_dotted (a : Address) : a.dotted.splitOn '.' = a.octets.map numeral := by
  refine List.splitOn_intercalate '.' ?_ (List.cons_ne_nil _ _)
  intro part hpart
  obtain ⟨n, -, rfl⟩ := List.mem_map.mp hpart
  exact point_not_mem_numeral n

theorem ofDotted_dotted (a : Address) : ofDotted? a.dotted = some a := by
  have hoctets : (a.octets.map numeral).map octet? = a.octets.map some := by
    rw [List.map_map]
    exact List.map_congr_left fun n hn => octet_numeral (a.octets_lt n hn)
  unfold ofDotted?
  rw [splitOn_dotted, hoctets]
  exact congrArg some (ofOctets_octets a)

/-- The text of an address is read as that address. -/
theorem ofText_text (a : Address) : ofText? a.text = some a := by
  unfold ofText? text
  rw [String.toList_ofList]
  exact ofDotted_dotted a

/-- No two addresses have the same text. -/
theorem text_injective {a b : Address} (h : a.text = b.text) : a = b := by
  have hread := ofText_text a
  rw [h, ofText_text b] at hread
  exact (Option.some.inj hread).symm

theorem parse_text (a : Address) : Address.parse a.text = .ok a := by
  have hne : a.text.isEmpty = false := by
    cases hempty : a.text.isEmpty with
    | false => rfl
    | true =>
      have hread := ofText_text a
      rw [String.isEmpty_iff.mp hempty] at hread
      cases hread
  unfold parse
  rw [hne, ofText_text]
  rfl

/-! ## No other text is read -/

/-- An octet that is read was written as its numeral: a sign or a blank is no digit, and a leading
zero is refused. -/
theorem numeral_of_octet {cs : List Char} {n : Nat} (h : octet? cs = some n) :
    cs = numeral n ∧ n < 256 := by
  unfold octet? at h
  split at h
  · next hcond =>
    obtain rfl := Option.some.inj h
    simp only [Bool.and_eq_true, Bool.or_eq_true, beq_iff_eq, bne_iff_ne, decide_eq_true_iff]
      at hcond
    obtain ⟨⟨⟨hdigits, -⟩, hhead⟩, hle⟩ := hcond
    exact ⟨(numeral_digitsValue hdigits hhead).symm, by omega⟩
  · cases h

/-- Four octets are those of the address that they make up. -/
theorem octets_ofOctets {a b c d : Nat} (ha : a < 256) (hb : b < 256) (hc : c < 256)
    (hd : d < 256) : (ofOctets a b c d).octets = [a, b, c, d] := by
  have hnumber : (ofOctets a b c d).number = ((a * 256 + b) * 256 + c) * 256 + d := by
    unfold number ofOctets
    rw [BitVec.toNat_ofNat]
    exact Nat.mod_eq_of_lt (by omega)
  unfold octets
  rw [hnumber]
  simp only [List.cons.injEq, and_true]
  omega

theorem dotted_of_ofDotted {cs : List Char} {a : Address} (h : ofDotted? cs = some a) :
    cs = a.dotted := by
  unfold ofDotted? at h
  split at h
  · next w x y z hparts =>
    obtain rfl := Option.some.inj h
    -- the parts between the points are the numerals of the octets
    obtain ⟨p, rest, hsplit, hp, hrest⟩ := List.map_eq_cons_iff.mp hparts
    obtain ⟨q, rest, rfl, hq, hrest⟩ := List.map_eq_cons_iff.mp hrest
    obtain ⟨r, rest, rfl, hr, hrest⟩ := List.map_eq_cons_iff.mp hrest
    obtain ⟨t, rest, rfl, ht, hrest⟩ := List.map_eq_cons_iff.mp hrest
    obtain rfl := List.map_eq_nil_iff.mp hrest
    obtain ⟨rfl, hw⟩ := numeral_of_octet hp
    obtain ⟨rfl, hx⟩ := numeral_of_octet hq
    obtain ⟨rfl, hy⟩ := numeral_of_octet hr
    obtain ⟨rfl, hz⟩ := numeral_of_octet ht
    calc cs = ['.'].intercalate (cs.splitOn '.') := (List.intercalate_splitOn '.').symm
      _ = (ofOctets w x y z).dotted := by
        rw [hsplit, dotted, octets_ofOctets hw hx hy hz]
        rfl
  · cases h

/-- A text that is read as an address is the text of that address. -/
theorem text_of_ofText {s : String} {a : Address} (h : ofText? s = some a) : s = a.text := by
  rw [text, ← dotted_of_ofDotted h, String.ofList_toList]

theorem parse_eq_ok_iff {s : String} {a : Address} : Address.parse s = .ok a ↔ s = a.text := by
  constructor
  · intro h
    unfold parse at h
    split at h
    · cases h
    · split at h
      · next hread => rw [text_of_ofText hread, Except.ok.inj h]
      · cases h
  · rintro rfl
    exact parse_text a

/-- Any other text is refused: an empty one as empty, the others as malformed. -/
theorem parse_of_ne_text {s : String} (h : ∀ a : Address, s ≠ a.text) :
    Address.parse s = .error (if s = "" then .emptyAddress else .malformedAddress s) := by
  by_cases hempty : s = ""
  · subst hempty
    rfl
  · have hread : ofText? s = none := by
      cases hread : ofText? s with
      | none => rfl
      | some a => exact absurd (text_of_ofText hread) (h a)
    have hnonempty : ¬ s.isEmpty = true := fun h => hempty (String.isEmpty_iff.mp h)
    rw [parse, if_neg hnonempty, hread, if_neg hempty]

end Address

namespace Subnet

theorem ofMask_mask (s : Subnet) : ofMask s.ip s.mask = .ok s := by
  have hpos := s.mask_pos
  unfold ofMask
  rw [if_neg (by omega), dif_pos ⟨s.mask_pos, s.mask_le⟩]

/-- A mask fits eight bits. -/
theorem toNat_mask (s : Subnet) : (UInt8.ofNat s.mask).toNat = s.mask := by
  have hle := s.mask_le
  rw [UInt8.toNat_ofNat']
  omega

/-- The text of the address and the mask make the subnet again. -/
theorem make_text (s : Subnet) : make s.ip.text (UInt8.ofNat s.mask) = .ok s := by
  unfold make
  rw [Address.parse_text, toNat_mask]
  exact ofMask_mask s

end Subnet

end LoginAdmission
