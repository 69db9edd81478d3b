/-
  Numbers of moderate size have a binary64 number nearest to them.

  The bounds are coarse and ask only that nothing goes beyond the greatest number: a quotient below
  `2 ^ 1000` is rounded to some number (`ofRatio_isSome`), and the nearest number to a natural one
  is not much larger than that one (`ofNat_bounded`).
-/
import Mathlib.Algebra.Group.Nat.Defs
import LoginAdmission.Decimal.Binary64

namespace LoginAdmission.Binary64

/-- The exponent that a quotient is rounded at. -/
def roundingExponent (num den : Nat) : Int := max (log2Ratio num den - 52) leastExponent

/-- The rounded multiple of the unit at that exponent. -/
def roundedMantissa (num den : Nat) : Nat :=
  let (n, d) := scale num den (-roundingExponent num den)
  roundDiv n d

/-- A quotient whose exponent is not too large is rounded; a mantissa of 54 bits is halved. -/
theorem ofRatio_eq {num den : Nat} (h : num ≠ 0)
    (hq : roundingExponent num den + 1 ≤ greatestExponent) :
    ofRatio? num den = some ⟨roundedMantissa num den, roundingExponent num den⟩ ∨
    roundedMantissa num den = 2 * leastFull ∧
      ofRatio? num den = some ⟨leastFull, roundingExponent num den + 1⟩ := by
  have heq : ofRatio? num den =
      let r := if roundedMantissa num den = 2 * leastFull
        then (leastFull, roundingExponent num den + 1)
        else (roundedMantissa num den, roundingExponent num den)
      if greatestExponent < r.2 then none else some ⟨r.1, r.2⟩ := by
    unfold ofRatio?
    rw [if_neg h]
    rfl
  rw [heq]
  by_cases hm : roundedMantissa num den = 2 * leastFull
  · rw [if_pos hm]
    exact Or.inr ⟨hm, if_neg (by omega)⟩
  · rw [if_neg hm]
    exact Or.inl (if_neg (by omega))

/-- The exponent found for a quotient is at most that of its numerator. -/
theorem log2Ratio_le (num den : Nat) : log2Ratio num den ≤ num.log2 := by
  unfold log2Ratio
  dsimp only
  split <;> omega

/-- A quotient with a numerator below `2 ^ 1000` has a nearest number. -/
theorem ofRatio_isSome {num : Nat} (den : Nat) (h : num < 2 ^ 1000) :
    (ofRatio? num den).isSome = true := by
  by_cases hzero : num = 0
  · subst hzero
    rfl
  · have hlog := (Nat.log2_lt hzero).mpr h
    have hle := log2Ratio_le num den
    have hq : roundingExponent num den + 1 ≤ greatestExponent := by
      unfold roundingExponent leastExponent greatestExponent
      omega
    rcases ofRatio_eq hzero hq with heq | ⟨-, heq⟩ <;> rw [heq] <;> rfl

/-! ## Natural numbers -/

theorem roundDiv_le (num den : Nat) : roundDiv num den ≤ num / den + 1 := by
  unfold roundDiv
  dsimp only
  split
  · omega
  · split
    · omega
    · split <;> omega

theorem scale_one (num : Nat) (e : Int) :
    scale num 1 e = (num * 2 ^ e.toNat, 2 ^ (-e).toNat) := by
  unfold scale
  by_cases he : 0 ≤ e
  · have hneg : (-e).toNat = 0 := by omega
    rw [if_pos he, hneg, Nat.pow_zero]
    rfl
  · have hpos : e.toNat = 0 := by omega
    rw [if_neg he, hpos, Nat.pow_zero, Nat.mul_one, Nat.one_mul]
    rfl

/-- A natural number is rounded at an exponent between fifty-three below its own and its own. -/
theorem roundingExponent_one (n : Nat) :
    (-roundingExponent n 1).toNat ≤ 53 ∧ (roundingExponent n 1).toNat ≤ n.log2 := by
  have hone : Nat.log2 1 = 0 := by decide
  have hge : (n.log2 : Int) - 1 ≤ log2Ratio n 1 := by
    unfold log2Ratio
    rw [hone]
    dsimp only
    split <;> omega
  have hle := log2Ratio_le n 1
  unfold roundingExponent leastExponent
  omega

/-- The multiple taken at the exponent of rounding. -/
theorem roundedMantissa_mul_le {n : Nat} (h : n ≠ 0) :
    roundedMantissa n 1 * 2 ^ (roundingExponent n 1).toNat ≤ n * 2 ^ 54 := by
  obtain ⟨hlow, hhigh⟩ := roundingExponent_one n
  have hunit : 2 ^ (roundingExponent n 1).toNat ≤ n :=
    Nat.le_trans (Nat.pow_le_pow_right (by decide) hhigh) (Nat.log2_self_le h)
  have hscaled : 2 ^ (-roundingExponent n 1).toNat ≤ 2 ^ 53 := Nat.pow_le_pow_right (by decide) hlow
  unfold roundedMantissa
  rw [scale_one, Int.neg_neg]
  generalize (roundingExponent n 1).toNat = up at hunit
  generalize (-roundingExponent n 1).toNat = down at hscaled
  calc roundDiv (n * 2 ^ down) (2 ^ up) * 2 ^ up
      ≤ (n * 2 ^ down / 2 ^ up + 1) * 2 ^ up := Nat.mul_le_mul_right _ (roundDiv_le _ _)
    _ = n * 2 ^ down / 2 ^ up * 2 ^ up + 2 ^ up := by rw [Nat.add_mul, Nat.one_mul]
    _ ≤ n * 2 ^ down + n := Nat.add_le_add (Nat.div_mul_le_self _ _) hunit
    _ ≤ n * 2 ^ 53 + n := Nat.add_le_add_right (Nat.mul_le_mul_left _ hscaled) _
    _ ≤ n * 2 ^ 54 := by omega

/-- The nearest number to a natural one, and a bound on it. -/
theorem ofNat_bounded {n k : Nat} (h : n < 2 ^ k) (hk : k ≤ 1000) :
    ∃ x, ofNat? n = some x ∧ x.ratio.1 < 2 ^ (k + 54) := by
  by_cases hzero : n = 0
  · subst hzero
    exact ⟨zero, rfl, Nat.lt_of_lt_of_le (by decide) (Nat.one_le_two_pow)⟩
  · have hlog := (Nat.log2_lt hzero).mpr h
    have hle := log2Ratio_le n 1
    have hq : roundingExponent n 1 + 1 ≤ greatestExponent := by
      unfold roundingExponent leastExponent greatestExponent
      omega
    have hbound : n * 2 ^ 54 < 2 ^ (k + 54) := by
      rw [Nat.pow_add]
      exact Nat.mul_lt_mul_of_pos_right h (by decide)
    have hrounded := roundedMantissa_mul_le hzero
    unfold ofNat?
    rcases ofRatio_eq hzero hq with heq | ⟨hm, heq⟩
    · refine ⟨_, heq, ?_⟩
      unfold ratio
      rw [scale_one]
      exact Nat.lt_of_le_of_lt hrounded hbound
    · refine ⟨_, heq, ?_⟩
      have hhalf : 2 ^ (roundingExponent n 1 + 1).toNat ≤ 2 * 2 ^ (roundingExponent n 1).toNat := by
        rw [← Nat.pow_succ']
        exact Nat.pow_le_pow_right (by decide) (by omega)
      unfold ratio
      rw [scale_one]
      calc leastFull * 2 ^ (roundingExponent n 1 + 1).toNat
          ≤ leastFull * (2 * 2 ^ (roundingExponent n 1).toNat) := Nat.mul_le_mul_left _ hhalf
        _ = roundedMantissa n 1 * 2 ^ (roundingExponent n 1).toNat := by
          rw [hm, Nat.mul_comm 2 leastFull, Nat.mul_assoc]
        _ ≤ n * 2 ^ 54 := hrounded
        _ < 2 ^ (k + 54) := hbound

theorem mul_lt_two_pow {a b i j k : Nat} (ha : a < 2 ^ i) (hb : b < 2 ^ j) (h : i + j ≤ k) :
    a * b < 2 ^ k :=
  calc a * b < 2 ^ i * 2 ^ j := Nat.mul_lt_mul'' ha hb
    _ = 2 ^ (i + j) := (Nat.pow_add 2 i j).symm
    _ ≤ 2 ^ k := Nat.pow_le_pow_right (by decide) h

end LoginAdmission.Binary64
