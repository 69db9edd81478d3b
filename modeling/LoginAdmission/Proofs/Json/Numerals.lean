/-
  Whole numbers in JSON are read as they were written.

  A numeral ends where something else follows it: at the end of the text, a comma or a closing
  bracket (`Follows`). Numbers below the wide bound of 128 bits stand for some number
  (`number_isSome`): those of 64 bits for themselves, larger ones for a floating-point number.
-/
import Mathlib.Data.List.TakeDrop
import LoginAdmission.Json.Reader
import LoginAdmission.Json.Writer
import LoginAdmission.Proofs.Decimal.Magnitude

namespace LoginAdmission.Json

open Text

/-- What can stand behind a value in the compact form. -/
def Follows : List Char → Prop
  | [] => True
  | c :: _ => c = ',' ∨ c = ']' ∨ c = '\x7d'

/-! ## Scanning -/

/-- Digits end where something else follows. -/
theorem span_numeral (n : Nat) {rest : List Char} (h : Follows rest) :
    (numeral n ++ rest).span Char.isDigit = (numeral n, rest) := by
  have hdigits : ∀ c ∈ numeral n, c.isDigit = true := fun c hc => isDigit_of_mem_numeral hc
  have hrest : rest.takeWhile Char.isDigit = [] ∧ rest.dropWhile Char.isDigit = rest := by
    cases rest with
    | nil => exact ⟨rfl, rfl⟩
    | cons c cs => rcases h with rfl | rfl | rfl <;> exact ⟨rfl, rfl⟩
  rw [List.span_eq_takeWhile_dropWhile, List.takeWhile_append_of_pos hdigits,
    List.dropWhile_append_of_pos hdigits, hrest.1, hrest.2, List.append_nil]

theorem scanWhole_numeral (n : Nat) {rest : List Char} (h : Follows rest) :
    scanWhole? (numeral n ++ rest) = some (numeral n, rest) := by
  unfold scanWhole?
  rw [span_numeral n h]
  by_cases hzero : n = 0
  · subst hzero
    rfl
  · have hhead := head_numeral hzero
    have hne := numeral_ne_nil n
    split
    · next heq => exact absurd (congrArg Prod.fst heq) hne
    · next heq =>
      have hfirst : numeral n = _ := congrArg Prod.fst heq
      rw [hfirst] at hhead
      exact absurd rfl hhead
    · next heq => rw [← heq]

theorem scanFraction_follows {rest : List Char} (h : Follows rest) :
    scanFraction? rest = some ([], rest) := by
  cases rest with
  | nil => rfl
  | cons c cs => rcases h with rfl | rfl | rfl <;> rfl

theorem scanExponent_follows {rest : List Char} (h : Follows rest) :
    scanExponent? rest = some (none, rest) := by
  cases rest with
  | nil => rfl
  | cons c cs => rcases h with rfl | rfl | rfl <;> rfl

/-- The numeral of a number is read up to what follows it. -/
theorem scanNumeral_numeral (n : Nat) {rest : List Char} (h : Follows rest) :
    scanNumeral? (numeral n ++ rest) = some (.ofNat n, rest) := by
  have hunsigned : scanUnsigned? false (numeral n ++ rest) = some (.ofNat n, rest) := by
    unfold scanUnsigned?
    rw [scanWhole_numeral n h]
    simp only [Option.bind_eq_bind, Option.bind_some, scanFraction_follows h,
      scanExponent_follows h]
    rfl
  cases hn : numeral n with
  | nil => exact absurd hn (numeral_ne_nil n)
  | cons d ds =>
    have hdigit : d.isDigit = true := isDigit_of_mem_numeral (hn ▸ List.mem_cons_self)
    rw [← hn, ← hunsigned, hn, List.cons_append]
    unfold scanNumeral?
    split
    · next heq =>
      cases heq
      exact absurd hdigit (by decide)
    · rfl

/-! ## The number meant -/

theorem isWhole_ofNat (n : Nat) : (Numeral.ofNat n).isWhole = true := rfl

/-- A numeral that fits a word stands for its number. -/
theorem number_word {n : Nat} (h : n < wordBound) :
    (Numeral.ofNat n).number? = some (.natural n) := by
  have hvalue : digitsValue (Numeral.ofNat n).whole = n := digitsValue_numeral n
  unfold Numeral.number?
  rw [hvalue, isWhole_ofNat]
  dsimp only
  rw [if_pos]
  simpa [Numeral.ofNat] using h

theorem takeIn_bounds (acc : Nat) (cs : List Char) (h : acc < wordBound) :
    (Numeral.takeIn acc cs).1 < wordBound ∧ (Numeral.takeIn acc cs).2.length ≤ cs.length := by
  induction cs generalizing acc with
  | nil => exact ⟨h, Nat.le_refl _⟩
  | cons c cs ih =>
    unfold Numeral.takeIn
    split
    · next hnext =>
      obtain ⟨hvalue, hlength⟩ := ih _ hnext
      exact ⟨hvalue, Nat.le_succ_of_le hlength⟩
    · exact ⟨h, Nat.le_refl _⟩

/-- The digits taken in of a numeral below the wide bound, and the power of ten left over. -/
theorem significand_ofNat {n : Nat} (h : n < wideBound) :
    ∃ digits, ∃ k : Nat, (Numeral.ofNat n).significand = (digits, (k : Int)) ∧
      digits < wordBound ∧ k ≤ 39 := by
  have hlength : (numeral n).length ≤ 39 := by
    refine length_numeral_le (by decide) (Nat.lt_trans h ?_)
    decide
  obtain ⟨hvalue, hleft⟩ := takeIn_bounds 0 (numeral n) (by decide)
  refine ⟨(Numeral.takeIn 0 (numeral n)).1, (Numeral.takeIn 0 (numeral n)).2.length, ?_, hvalue,
    Nat.le_trans hleft hlength⟩
  unfold Numeral.significand Numeral.ofNat
  simp [Numeral.takeIn, Numeral.writtenExponent]

theorem magnitude_isSome {n : Nat} (h : n < wideBound) :
    (Numeral.ofNat n).magnitude?.isSome = true := by
  obtain ⟨digits, k, hsignificand, hdigits, hk⟩ := significand_ofNat h
  unfold Numeral.magnitude?
  rw [hsignificand]
  dsimp only
  by_cases hzero : digits = 0
  · rw [if_pos hzero]
    rfl
  · have hten : Nat.pow 10 k < 2 ^ 130 :=
      Nat.lt_of_le_of_lt (Nat.pow_le_pow_right (by decide) hk) (by decide)
    obtain ⟨x, hx, hxlt⟩ := Binary64.ofNat_bounded (k := 64) hdigits (by decide)
    obtain ⟨y, hy, hylt⟩ := Binary64.ofNat_bounded hten (by decide)
    have hproduct := Binary64.mul_lt_two_pow (k := 1000) hxlt hylt (by decide)
    have hpositive : (0 : Int) ≤ (k : Int) := by omega
    have hsmall : (k : Int) ≤ 308 := by omega
    have hpower : Binary64.powerOfTen? (k : Int).toNat = some y := hy
    rw [if_neg hzero, hx, Option.bind_some, if_pos hpositive, if_pos hsmall, hpower,
      Option.bind_some]
    exact Binary64.ofRatio_isSome _ hproduct

/-- Every number of 128 bits has a numeral that stands for some number. -/
theorem number_isSome {n : Nat} (h : n < wideBound) : (Numeral.ofNat n).number?.isSome = true := by
  by_cases hword : n < wordBound
  · rw [number_word hword]
    rfl
  · have hvalue : digitsValue (Numeral.ofNat n).whole = n := digitsValue_numeral n
    have hmagnitude := magnitude_isSome h
    unfold Numeral.number?
    rw [hvalue]
    dsimp only
    rw [if_neg (by simp [hword]), if_neg (by simp [Numeral.ofNat]), Option.isSome_map]
    exact hmagnitude

/-- A whole number of 128 bits is read up to what follows it. -/
theorem ofNumeral_ofNat {n : Nat} (h : n < wideBound) : ofNumeral (.ofNat n) = nat n :=
  if_pos (number_isSome h)

end LoginAdmission.Json
