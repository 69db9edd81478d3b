/-
  Numerals of JSON and the numbers they stand for.

  A numeral without point and exponent is a whole number when it fits a word of 64 bits, unsigned
  or with a sign; minus zero is not one of them. Every other numeral is a binary floating-point
  number: its leading digits, as many as fit an unsigned word, times or over a power of ten. A
  numeral beyond the greatest such number stands for none.
-/
import LoginAdmission.Decimal.Shortest
import LoginAdmission.Width

namespace LoginAdmission.Json

open Text

/-- A numeral as it is written: its sign, its digits before and behind the point, and the sign and
digits of its exponent. -/
structure Numeral where
  negative : Bool
  whole : List Char
  fraction : List Char
  exponent : Option (Bool × List Char)
deriving DecidableEq

/-- A number that a numeral can stand for. -/
inductive Number where
  | natural (value : Nat)
  | negativeInteger (value : Int)
  | float (negative : Bool) (magnitude : Binary64)
deriving DecidableEq

namespace Numeral

/-- The numeral of a natural number. -/
def ofNat (n : Nat) : Numeral := ⟨false, numeral n, [], none⟩

/-- Whether a numeral is a run of digits, with or without a minus sign. -/
def isWhole (n : Numeral) : Bool := n.fraction.isEmpty && n.exponent.isNone

/-- The value of a decimal digit. -/
def digit (c : Char) : Nat := c.toNat - '0'.toNat

/-- Takes in digits as long as the number formed fits an unsigned word of 64 bits; gives the number
and the digits left. -/
def takeIn (acc : Nat) : List Char → Nat × List Char
  | [] => (acc, [])
  | c :: cs =>
    if acc * 10 + digit c < wordBound then takeIn (acc * 10 + digit c) cs else (acc, c :: cs)

/-- The exponent as written; too large a one counts as the largest of 32 bits. -/
def writtenExponent (n : Numeral) : Int :=
  match n.exponent with
  | none => 0
  | some (negative, ds) =>
    let e : Int := min (digitsValue ds) 2147483647
    if negative then -e else e

/-- The leading digits of a numeral and the power of ten they are to be multiplied with. Digits
before the point that are left out raise the power; those behind it that are taken in lower it. -/
def significand (n : Numeral) : Nat × Int :=
  let (a, left) := takeIn 0 n.whole
  let (b, rest) := takeIn a n.fraction
  (b, left.length - (n.fraction.length - rest.length : Nat) + n.writtenExponent)

/-- `x` divided by ten to the power `k`, in steps of at most 308. -/
def divideByPower? : Nat → Binary64 → Nat → Option Binary64
  | 0, x, _ => some x
  | fuel + 1, x, k =>
    if x.mantissa = 0 then some x
    else if k ≤ 308 then (Binary64.powerOfTen? k).bind x.div?
    else ((Binary64.powerOfTen? 308).bind x.div?).bind fun y => divideByPower? fuel y (k - 308)

/-- The floating-point number of a numeral, without its sign. -/
def magnitude? (n : Numeral) : Option Binary64 :=
  let (digits, e) := n.significand
  if digits = 0 then some .zero
  else
    (Binary64.ofNat? digits).bind fun x =>
      if 0 ≤ e then
        if e ≤ 308 then (Binary64.powerOfTen? e.toNat).bind x.mul? else none
      else divideByPower? 4 x (-e).toNat

/-- The number that a numeral stands for, if it stands for one. -/
def number? (n : Numeral) : Option Number :=
  let v := digitsValue n.whole
  if n.isWhole && !n.negative && v < wordBound then some (.natural v)
  else if n.isWhole && n.negative && v ≠ 0 && v ≤ signedBound then some (.negativeInteger (-v))
  else n.magnitude?.map (.float n.negative)

end Numeral

/-- The text of a number in messages. -/
def Number.text : Number → String
  | .natural v => decimal v
  | .negativeInteger v => toString v
  | .float negative x => Decimal.text negative x

end LoginAdmission.Json
