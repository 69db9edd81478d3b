/-
  Subnets as texts.

  A subnet is written as `address/mask`. Reading is more liberal: blanks may stand around both
  parts, and the mask may carry a plus sign and leading zeros. The address must be in dotted form.
  Of several faults the earliest in `Subnet.Refused` is reported.

  Main statement: `subnet_text_law`. A text is looked at by its parts (`Subnet.Parts`): a subnet or
  a fault can be told from them for every text (`Subnet.given_or_refused`), and what is told is what
  reading gives (`Subnet.parse_of_given`, `Subnet.parse_of_refused`).
-/
import Mathlib.Data.List.TakeDrop
import Mathlib.Data.List.TakeWhile
import LoginAdmission.Proofs.Address.Dotted
import LoginAdmission.Proofs.Text.Blanks
import LoginAdmission.Proofs.Text.Numbers

namespace LoginAdmission

open Text

namespace Subnet

/-- The parts of a text before and behind its first slash, without the blanks around each. -/
def Parts (text : String) (address mask : List Char) : Prop :=
  ∃ before behind, text.toList = before ++ '/' :: behind ∧ '/' ∉ before ∧
    Trims before address ∧ Trims behind mask

/-- The text gives an address in dotted form, and a number as its mask. -/
def Given (text : String) (ip : Address) (m : Nat) : Prop :=
  ∃ mask, Parts text ip.dotted mask ∧ Unsigned mask m

/-- Why a text is refused. Each fault presupposes that those before it are not there. -/
inductive Refused (text : String) : InvalidInput → Prop
  | unslashed (h : '/' ∉ text.toList) : Refused text .missingMask
  | unnumbered {address mask : List Char} (parts : Parts text address mask)
      (h : ∀ n ≤ 255, ¬ Unsigned mask n) : Refused text (.malformedAddress text)
  | emptyAddress {mask : List Char} {n : Nat} (parts : Parts text [] mask)
      (number : Unsigned mask n) (hn : n ≤ 255) : Refused text .emptyAddress
  | malformedAddress {address mask : List Char} {n : Nat} (parts : Parts text address mask)
      (number : Unsigned mask n) (hn : n ≤ 255) (hne : address ≠ [])
      (h : ∀ a : Address, address ≠ a.dotted) :
      Refused text (.malformedAddress (String.ofList address))
  | zeroMask {a : Address} (h : Given text a 0) : Refused text .missingMask
  | maskOutOfRange {a : Address} {n : Nat} (h : Given text a n) (hlow : 32 ≤ n) (hn : n ≤ 255) :
      Refused text (.maskOutOfRange n)

end Subnet

/-- How subnets are written and read. -/
structure SubnetTextLaw : Prop where
  /-- A subnet is read from its own text. -/
  written : ∀ s : Subnet, Subnet.parse s.text = .ok s
  /-- The texts that are read, and the subnets they are read as. -/
  accepted : ∀ text ip m, (∃ s, Subnet.parse text = .ok s ∧ s.ip = ip ∧ s.mask = m) ↔
    (1 ≤ m ∧ m ≤ 31) ∧ Subnet.Given text ip m
  /-- All other texts are refused, each with its fault. -/
  refused : ∀ text e, Subnet.parse text = .error e ↔ Subnet.Refused text e

namespace Subnet

/-! ## Cutting at the first slash -/

theorem ne_slash_of_not_mem {cs : List Char} (h : '/' ∉ cs) :
    ∀ c ∈ cs, decide (c ≠ '/') = true := by
  intro c hc
  exact decide_eq_true fun heq => h (heq ▸ hc)

theorem splitSlash_append {before behind : List Char} (h : '/' ∉ before) :
    splitSlash? (before ++ '/' :: behind) = some (before, behind) := by
  have hbefore := ne_slash_of_not_mem h
  have htake : (before ++ '/' :: behind).takeWhile (· ≠ '/') = before := by
    rw [List.takeWhile_append_of_pos hbefore, List.takeWhile_cons_of_neg (by decide),
      List.append_nil]
  have hdrop : (before ++ '/' :: behind).dropWhile (· ≠ '/') = '/' :: behind := by
    rw [List.dropWhile_append_of_pos hbefore, List.dropWhile_cons_of_neg (by decide)]
  rw [splitSlash?, List.span_eq_takeWhile_dropWhile, htake, hdrop]
  rfl

theorem splitSlash_of_not_mem {cs : List Char} (h : '/' ∉ cs) : splitSlash? cs = none := by
  have hdrop : cs.dropWhile (· ≠ '/') = [] :=
    List.dropWhile_eq_nil_iff.mpr (ne_slash_of_not_mem h)
  rw [splitSlash?, List.span_eq_takeWhile_dropWhile, hdrop]

/-! ## What reading gives -/

variable {text : String} {address mask : List Char} {ip : Address} {m : Nat}

theorem exists_parts (h : '/' ∈ text.toList) : ∃ address mask, Parts text address mask := by
  obtain ⟨before, behind, htext, hfirst⟩ := List.eq_append_cons_of_mem h
  exact ⟨trim before, trim behind, before, behind, htext, hfirst, trims_trim _, trims_trim _⟩

theorem parse_of_unslashed (h : '/' ∉ text.toList) : parse text = .error .missingMask := by
  rw [parse, splitSlash_of_not_mem h]

theorem Parts.parse_of_unnumbered (parts : Parts text address mask)
    (h : ∀ n ≤ 255, ¬ Unsigned mask n) : parse text = .error (.malformedAddress text) := by
  obtain ⟨before, behind, htext, hfirst, haddress, hmask⟩ := parts
  have hnone : unsigned? byteBound mask = none :=
    unsigned_eq_none_iff.mpr fun n hn => h n (Nat.le_of_lt_succ hn)
  rw [parse, htext, splitSlash_append hfirst]
  dsimp only
  rw [trim_eq_iff.mpr hmask, hnone]

/-- A number behind the slash is taken as the mask, and the text before it as the address. -/
theorem Parts.parse_of_number (parts : Parts text address mask) (number : Unsigned mask m)
    (hm : m ≤ 255) : parse text = make (String.ofList address) (UInt8.ofNat m) := by
  obtain ⟨before, behind, htext, hfirst, haddress, hmask⟩ := parts
  have hsome : unsigned? byteBound mask = some m :=
    unsigned_eq_some_iff.mpr ⟨number, Nat.lt_succ_of_le hm⟩
  rw [parse, htext, splitSlash_append hfirst]
  dsimp only
  rw [trim_eq_iff.mpr hmask, hsome, trim_eq_iff.mpr haddress]

/-- With an address in dotted form all depends on the mask. -/
theorem Given.parse (h : Given text ip m) (hm : m ≤ 255) : parse text = ofMask ip m := by
  obtain ⟨mask, parts, number⟩ := h
  have hnumber : (UInt8.ofNat m).toNat = m := UInt8.toNat_ofNat_of_lt' (Nat.lt_succ_of_le hm)
  have hip : Address.parse (String.ofList ip.dotted) = .ok ip := Address.parse_text ip
  rw [parts.parse_of_number number hm, make, hip, hnumber]

theorem parse_of_given (h : Given text ip m) (hpos : 1 ≤ m) (hle : m ≤ 31) :
    parse text = .ok ⟨ip, m, hpos, hle⟩ := by
  rw [h.parse (by omega)]
  exact ofMask_mask ⟨ip, m, hpos, hle⟩

/-- An address that is refused is refused before the mask is looked at. -/
theorem Parts.parse_of_address_error (parts : Parts text address mask)
    (number : Unsigned mask m) (hm : m ≤ 255) {e : InvalidInput}
    (h : Address.parse (String.ofList address) = .error e) : parse text = .error e := by
  rw [parts.parse_of_number number hm, make, h]

theorem parse_of_refused {e : InvalidInput} (h : Refused text e) : parse text = .error e := by
  cases h with
  | unslashed h => exact parse_of_unslashed h
  | unnumbered parts h => exact parts.parse_of_unnumbered h
  | emptyAddress parts number hn => exact parts.parse_of_address_error number hn rfl
  | @malformedAddress address mask n parts number hn hne h =>
    refine parts.parse_of_address_error number hn ?_
    have htext : ∀ a : Address, String.ofList address ≠ a.text :=
      fun a heq => h a (String.ofList_injective heq)
    rw [Address.parse_of_ne_text htext, if_neg]
    exact fun hempty => hne (String.ofList_injective hempty)
  | zeroMask h => exact h.parse (Nat.zero_le _)
  | maskOutOfRange h hlow hn =>
    rw [h.parse hn, ofMask, if_neg (by omega), dif_neg (by omega)]

/-! ## Every text -/

/-- A text gives a subnet or has one of the faults. -/
theorem given_or_refused (text : String) :
    (∃ s : Subnet, Given text s.ip s.mask) ∨ ∃ e, Refused text e := by
  by_cases hslash : '/' ∈ text.toList
  · obtain ⟨address, mask, parts⟩ := exists_parts hslash
    by_cases hnumber : ∃ n ≤ 255, Unsigned mask n
    · obtain ⟨n, hn, number⟩ := hnumber
      by_cases hdotted : ∃ a : Address, address = a.dotted
      · obtain ⟨a, rfl⟩ := hdotted
        have hgiven : Given text a n := ⟨mask, parts, number⟩
        rcases Nat.lt_or_ge 31 n with hlow | hle
        · exact .inr ⟨_, .maskOutOfRange hgiven hlow hn⟩
        · cases n with
          | zero => exact .inr ⟨_, .zeroMask hgiven⟩
          | succ n => exact .inl ⟨⟨a, n + 1, Nat.succ_pos n, hle⟩, hgiven⟩
      · by_cases hempty : address = []
        · subst hempty
          exact .inr ⟨_, .emptyAddress parts number hn⟩
        · exact .inr ⟨_, .malformedAddress parts number hn hempty fun a ha => hdotted ⟨a, ha⟩⟩
    · exact .inr ⟨_, .unnumbered parts fun n hn number => hnumber ⟨n, hn, number⟩⟩
  · exact .inr ⟨_, .unslashed hslash⟩

theorem given_of_parse {s : Subnet} (h : parse text = .ok s) : Given text s.ip s.mask := by
  rcases given_or_refused text with ⟨t, hgiven⟩ | ⟨e, hrefused⟩
  · rw [parse_of_given hgiven t.mask_pos t.mask_le] at h
    rwa [← Except.ok.inj h]
  · rw [parse_of_refused hrefused] at h
    cases h

theorem refused_of_parse {e : InvalidInput} (h : parse text = .error e) : Refused text e := by
  rcases given_or_refused text with ⟨t, hgiven⟩ | ⟨e', hrefused⟩
  · rw [parse_of_given hgiven t.mask_pos t.mask_le] at h
    cases h
  · rw [parse_of_refused hrefused] at h
    rwa [← Except.error.inj h]

/-! ## The text of a subnet -/

theorem mem_dotted {c : Char} (h : c ∈ ip.dotted) : c.isDigit = true ∨ c = '.' := by
  by_cases hpoint : c = '.'
  · exact .inr hpoint
  · simp only [Address.dotted, Address.octets, List.map_cons, List.map_nil,
      List.intercalate_cons_cons, List.intercalate_singleton, List.mem_append, List.mem_singleton,
      hpoint, or_false] at h
    rcases h with hn | hn | hn | hn <;> exact .inl (isDigit_of_mem_numeral hn)

theorem unbroken_dotted (ip : Address) : Unbroken ip.dotted := by
  intro c hc
  rcases mem_dotted hc with hdigit | rfl
  · exact not_isBlank_of_isDigit hdigit
  · decide

theorem slash_not_mem_dotted (ip : Address) : '/' ∉ ip.dotted := by
  intro h
  rcases mem_dotted h with hdigit | hpoint
  · exact absurd hdigit (by decide)
  · exact absurd hpoint (by decide)

theorem given_text (s : Subnet) : Given s.text s.ip s.mask := by
  have htext : s.text.toList = s.ip.dotted ++ '/' :: numeral s.mask := by
    simp [text, Address.text, decimal]
  exact ⟨numeral s.mask, ⟨s.ip.dotted, numeral s.mask, htext, slash_not_mem_dotted s.ip,
    trims_self (unbroken_dotted s.ip), trims_self (unbroken_numeral s.mask)⟩,
    unsigned_numeral s.mask⟩

end Subnet

/-- Subnets are read from their texts, and from no text that gives none. -/
theorem subnet_text_law : SubnetTextLaw where
  written s := Subnet.parse_of_given s.given_text s.mask_pos s.mask_le
  accepted text ip m := by
    constructor
    · rintro ⟨s, hparse, rfl, rfl⟩
      exact ⟨⟨s.mask_pos, s.mask_le⟩, Subnet.given_of_parse hparse⟩
    · rintro ⟨⟨hpos, hle⟩, hgiven⟩
      exact ⟨_, Subnet.parse_of_given hgiven hpos hle, rfl, rfl⟩
  refused _ _ := ⟨Subnet.refused_of_parse, Subnet.parse_of_refused⟩

example : Subnet.parse " 10.0.0.1 /\t+08" = .ok ⟨⟨0x0a000001⟩, 8, by decide, by decide⟩ := by
  decide

end LoginAdmission
