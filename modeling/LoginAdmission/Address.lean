/-
  Network addresses of 32 bits and their dotted form.

  An address is written as its four octets in decimal, joined by points. Reading accepts exactly
  these texts: four octets, each without sign, blank or leading zero and at most 255. So an
  address has one spelling, and a text that names an address can stand for it.
-/
import LoginAdmission.Text.Digits

namespace LoginAdmission

open Text

/-- An address of 32 bits. -/
structure Address where
  bits : BitVec 32
deriving DecidableEq

namespace Address

/-- The address as a number, most significant octet first. -/
def number (a : Address) : Nat := a.bits.toNat

/-- The four octets, most significant first. -/
def octets (a : Address) : List Nat :=
  [a.number / 16777216, a.number / 65536 % 256, a.number / 256 % 256, a.number % 256]

/-- The address with these octets. -/
def ofOctets (a b c d : Nat) : Address :=
  ⟨BitVec.ofNat 32 (((a * 256 + b) * 256 + c) * 256 + d)⟩

/-- The octets in decimal with points between them. -/
def dotted (a : Address) : List Char := ['.'].intercalate (a.octets.map numeral)

/-- The dotted form of an address. -/
def text (a : Address) : String := String.ofList a.dotted

/-- Reads one octet: one to three digits, the first of several not a zero, at most 255. -/
def octet? (cs : List Char) : Option Nat :=
  if isDigits cs && cs.length ≤ 3 && (cs.length == 1 || cs.head? != some '0')
      && digitsValue cs ≤ 255 then
    some (digitsValue cs)
  else none

/-- Reads a dotted form. -/
def ofDotted? (cs : List Char) : Option Address :=
  match (cs.splitOn '.').map octet? with
  | [some a, some b, some c, some d] => some (ofOctets a b c d)
  | _ => none

/-- Reads the dotted form of an address. -/
def ofText? (s : String) : Option Address := ofDotted? s.toList

theorem number_lt (a : Address) : a.number < 4294967296 := a.bits.isLt

theorem octets_lt (a : Address) : ∀ n ∈ a.octets, n < 256 := by
  have := a.number_lt
  simp only [octets, List.mem_cons, List.not_mem_nil, or_false]
  rintro n (rfl | rfl | rfl | rfl) <;> omega

end Address

end LoginAdmission
