/-
  Binary floating-point numbers of 64 bits, without sign, infinities and NaN.

  A number is `mantissa · 2 ^ exponent`, with a mantissa of 53 bits, or a smaller one at the least
  exponent. `ofRatio?` rounds a quotient of natural numbers to the nearest of them, ties to an even
  mantissa; product and quotient are the exact ones, rounded so.
-/

namespace LoginAdmission

/-- A non-negative number of the binary64 format. -/
structure Binary64 where
  mantissa : Nat
  exponent : Int
deriving DecidableEq

namespace Binary64

/-- The least exponent. -/
def leastExponent : Int := -1074

/-- The greatest exponent of a mantissa of 53 bits. -/
def greatestExponent : Int := 971

/-- The least mantissa of 53 bits. -/
def leastFull : Nat := 4503599627370496

/-- Zero. -/
def zero : Binary64 := ⟨0, leastExponent⟩

/-- The quotient rounded to the nearest natural number, ties to the even one. -/
def roundDiv (num den : Nat) : Nat :=
  let q := num / den
  let r := num % den
  if 2 * r < den then q else if den < 2 * r then q + 1 else if q % 2 = 0 then q else q + 1

/-- `num / den · 2 ^ e` as a quotient of natural numbers. -/
def scale (num den : Nat) (e : Int) : Nat × Nat :=
  if 0 ≤ e then (num * Nat.pow 2 e.toNat, den) else (num, den * Nat.pow 2 (-e).toNat)

/-- The largest `e` with `2 ^ e ≤ num / den`, for positive numbers. -/
def log2Ratio (num den : Nat) : Int :=
  let e : Int := (num.log2 : Int) - den.log2
  let (n, d) := scale num den (-e)
  if n < d then e - 1 else e

/-- The nearest number to `num / den`, or nothing when that is beyond the greatest one. -/
def ofRatio? (num den : Nat) : Option Binary64 :=
  if num = 0 then some zero
  else
    let q := max (log2Ratio num den - 52) leastExponent
    let (n, d) := scale num den (-q)
    let m := roundDiv n d
    let (m, q) := if m = 2 * leastFull then (leastFull, q + 1) else (m, q)
    if greatestExponent < q then none else some ⟨m, q⟩

/-- The number as a quotient of natural numbers. -/
def ratio (x : Binary64) : Nat × Nat := scale x.mantissa 1 x.exponent

/-- The natural number that the number is equal to. -/
def whole? (x : Binary64) : Option Nat :=
  let (num, den) := x.ratio
  if num % den = 0 then some (num / den) else none

/-- The nearest number to a natural number. -/
def ofNat? (n : Nat) : Option Binary64 := ofRatio? n 1

/-- The nearest number to a power of ten. -/
def powerOfTen? (k : Nat) : Option Binary64 := ofRatio? (Nat.pow 10 k) 1

/-- The product, rounded. -/
def mul? (x y : Binary64) : Option Binary64 :=
  ofRatio? (x.ratio.1 * y.ratio.1) (x.ratio.2 * y.ratio.2)

/-- The quotient, rounded. -/
def div? (x y : Binary64) : Option Binary64 :=
  ofRatio? (x.ratio.1 * y.ratio.2) (x.ratio.2 * y.ratio.1)

end Binary64

end LoginAdmission
