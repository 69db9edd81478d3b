/-
  The shortest decimal text of a binary floating-point number.

  The digits are the fewest that read back as the same number, and of those the nearest. `digits`
  finds them on the decimal grids of 1, 2, ... 17 digits: it tests the two neighbours of the number
  on each grid against the interval of reals that round to the number. `text` lays them out: with a
  point and at least one digit on both sides of it where the exponent is small, with a signed
  exponent of at least two digits otherwise.
-/
import LoginAdmission.Decimal.Binary64
import LoginAdmission.Text.Digits

namespace LoginAdmission

open Text

/-- A decimal number: the digits of a numeral, and the exponent of the first of them. -/
structure Decimal where
  digits : Nat
  exponent : Int
deriving DecidableEq

namespace Decimal

/-- The largest `e` with `10 ^ e ≤ num / den`, searched downward from above, for `num` positive. -/
def log10Ratio : Nat → Int → Nat → Nat → Int
  | 0, e, _, _ => e
  | fuel + 1, e, num, den =>
    let fits := if 0 ≤ e then Nat.pow 10 e.toNat * den ≤ num else den ≤ num * Nat.pow 10 (-e).toNat
    if fits then e else log10Ratio fuel (e - 1) num den

/-- The interval of reals that round to a number, as a lower end, the number and an upper end over
a common denominator; the ends belong to it when the mantissa is even. -/
structure RoundingInterval where
  low : Nat
  middle : Nat
  high : Nat
  den : Nat
  closed : Bool

/-- The interval of a number. Below a power of two the numbers lie closer. -/
def interval (x : Binary64) : RoundingInterval :=
  let gap := if x.mantissa = Binary64.leastFull ∧ x.exponent ≠ Binary64.leastExponent then 1 else 2
  let s := fun n => Binary64.scale n 1 (x.exponent - 2)
  ⟨(s (4 * x.mantissa - gap)).1, (s (4 * x.mantissa)).1, (s (4 * x.mantissa + 2)).1, (s 1).2,
    x.mantissa % 2 = 0⟩

/-- `n · 10 ^ k · den` against a numerator of the interval: both sides as natural numbers. -/
def sides (n : Nat) (k : Int) (den num : Nat) : Nat × Nat :=
  if 0 ≤ k then (n * Nat.pow 10 k.toNat * den, num) else (n * den, num * Nat.pow 10 (-k).toNat)

/-- Whether a point of the grid lies in the interval. -/
def RoundingInterval.holds (i : RoundingInterval) (n : Nat) (k : Int) : Bool :=
  let (a, low) := sides n k i.den i.low
  let (b, high) := sides n k i.den i.high
  if i.closed then low ≤ a && b ≤ high else low < a && b < high

/-- The point of the grid `10 ^ k` that the interval holds, the nearer of two; the even one of two
that are equally near. -/
def RoundingInterval.pick? (i : RoundingInterval) (k : Int) : Option Nat :=
  let (unit, middle) := sides 1 k i.den i.middle
  let down := middle / unit
  let rest := middle % unit
  match i.holds down k, i.holds (down + 1) k with
  | true, true =>
    if 2 * rest < unit then some down
    else if unit < 2 * rest then some (down + 1)
    else if down % 2 = 0 then some down else some (down + 1)
  | true, false => some down
  | false, true => some (down + 1)
  | false, false => none

/-- Searches the grids from `count` digits on. -/
def search (i : RoundingInterval) (e : Int) : Nat → Nat → Decimal
  | 0, _ => ⟨0, 0⟩
  | fuel + 1, count =>
    match i.pick? (e - count + 1) with
    | some n =>
      if n = Nat.pow 10 count then ⟨1, e + 1⟩ else ⟨n, e⟩
    | none => search i e fuel (count + 1)

/-- The fewest digits that read back as a number. -/
def shortest (x : Binary64) : Decimal :=
  if x.mantissa = 0 then ⟨0, 0⟩
  else
    let i := interval x
    search i (log10Ratio 700 309 i.middle i.den) 17 1

/-- The least and the greatest exponent that are written without one. -/
def plainExponents : Int × Int := (-5, 15)

/-- A numeral of at least two digits. -/
def twoDigits (n : Nat) : List Char :=
  if n < 10 then '0' :: numeral n else numeral n

/-- The digits behind a point, at least one. -/
def pointed (ds : List Char) : List Char := '.' :: if ds.isEmpty then ['0'] else ds

/-- The layout of a decimal number. -/
def layout (d : Decimal) : List Char :=
  let ds := numeral d.digits
  if plainExponents.1 ≤ d.exponent ∧ d.exponent ≤ plainExponents.2 then
    if 0 ≤ d.exponent then
      let whole := d.exponent.toNat + 1
      (ds ++ List.replicate (whole - ds.length) '0').take whole ++ pointed (ds.drop whole)
    else '0' :: pointed (List.replicate ((-d.exponent).toNat - 1) '0' ++ ds)
  else
    ds.take 1 ++ (if ds.length = 1 then [] else '.' :: ds.drop 1)
      ++ 'e' :: (if 0 ≤ d.exponent then '+' else '-') :: twoDigits d.exponent.natAbs

/-- The text of a number with its sign. -/
def text (negative : Bool) (x : Binary64) : String :=
  String.ofList ((if negative then ['-'] else []) ++ layout (shortest x))

end Decimal

end LoginAdmission
