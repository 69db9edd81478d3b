/-
  Cells: the values that a column of a database row can hold.

  A column meant for whole numbers takes a text that is a decimal number as that number. Plain
  digits that fit a signed word of 64 bits are that whole number; any other number is rounded to
  binary64 and is a whole number again where the rounded one is whole and below 2^63, a real number
  otherwise. Any other text stays a text.
-/
import LoginAdmission.Decimal.Binary64
import LoginAdmission.Text.Digits
import LoginAdmission.Width

namespace LoginAdmission.Storage

open Text

/-- A decimal number as it is spelled: `± digits · 10 ^ exponent`. -/
structure Spelled where
  negative : Bool
  digits : Nat
  exponent : Int
  /-- Neither a point nor an exponent is written. -/
  plain : Bool
deriving DecidableEq

namespace Spelled

/-- A natural number with the sign of the number. -/
def signed (d : Spelled) (n : Nat) : Int := if d.negative then -n else n

/-- The whole number of 64 bits that plain digits stand for. -/
def word? (d : Spelled) : Option Int :=
  let n := d.signed d.digits
  if d.plain ∧ -signedBound ≤ n ∧ n < signedBound then some n else none

/-- The magnitude in binary64, or nothing when it is beyond the greatest number of that format. -/
def magnitude? (d : Spelled) : Option Binary64 :=
  if d.digits = 0 then some Binary64.zero
  else if 400 < d.exponent then none
  else if 0 ≤ d.exponent then Binary64.ofNat? (d.digits * Nat.pow 10 d.exponent.toNat)
  else if d.exponent + d.digits.log2 < -400 then some Binary64.zero
  else Binary64.ofRatio? d.digits (Nat.pow 10 (-d.exponent).toNat)

end Spelled

/-- The value in one column of a row. -/
inductive Cell where
  | integer (value : Int)
  /-- A real number; no magnitude stands for an infinite one. -/
  | real (negative : Bool) (magnitude : Option Binary64)
  | text (value : String)
  | blob (bytes : String)
deriving DecidableEq

namespace Cell

/-- The name of the type of a value in the database. -/
def typeName : Cell → String
  | integer _ => "INTEGER"
  | real _ _ => "REAL"
  | text _ => "TEXT"
  | blob _ => "BLOB"

/-- A space of the database's number grammar. -/
def isSpace (c : Char) : Bool := c == ' ' || (9 ≤ c.toNat && c.toNat ≤ 13)

/-- Reads a sign and says whether it is a minus. -/
def sign : List Char → Bool × List Char
  | '-' :: cs => (true, cs)
  | '+' :: cs => (false, cs)
  | cs => (false, cs)

/-- Reads the digits behind a point, if there is one. -/
def fraction : List Char → List Char × List Char
  | '.' :: cs => cs.span Char.isDigit
  | cs => ([], cs)

/-- Reads an exponent, which may be missing; nothing may follow it. -/
def exponent? : List Char → Option Int
  | [] => some 0
  | c :: rest =>
    if c = 'e' ∨ c = 'E' then
      let (negative, rest) := sign rest
      if isDigits rest then
        some (if negative then -(digitsValue rest : Int) else digitsValue rest)
      else none
    else none

/-- Reads a decimal number with spaces around it. -/
def decimal? (s : String) : Option Spelled :=
  let cs := (s.toList.dropWhile isSpace).reverse.dropWhile isSpace |>.reverse
  let (negative, cs) := sign cs
  let (whole, rest) := cs.span Char.isDigit
  let (part, tail) := fraction rest
  if whole.isEmpty && part.isEmpty then none
  else
    (exponent? tail).map fun e =>
      ⟨negative, digitsValue (whole ++ part), e - part.length, rest.isEmpty⟩

/-- The cell of a rounded number. -/
def ofRounded (d : Spelled) (x : Binary64) : Cell :=
  match x.whole? with
  | some n => if n < signedBound then integer (d.signed n) else real d.negative (some x)
  | none => real d.negative (some x)

/-- What a column for whole numbers makes of a text. -/
def ofNumberText (s : String) : Cell :=
  match decimal? s with
  | none => text s
  | some d =>
    match d.word?, d.magnitude? with
    | some n, _ => integer n
    | none, some x => ofRounded d x
    | none, none => real d.negative none

end Cell

end LoginAdmission.Storage
