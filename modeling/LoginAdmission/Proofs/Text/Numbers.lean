/-
  Unsigned numbers as they may be written.

  A number has many texts, since it may carry a plus sign and leading zeros. Which number a text
  stands for is told by the places of its digits (`Digits`).

  Main statement: `unsigned_eq_some_iff`.
-/
import Mathlib.Data.List.Induction
import LoginAdmission.Text.Digits

namespace LoginAdmission.Text

/-- The decimal digits that stand for a number: with one digit more behind them they stand for ten
times as much and the value of that digit. -/
inductive Digits : List Char → Nat → Prop
  | single {c : Char} (hc : c.isDigit = true) : Digits [c] (c.toNat - 48)
  | more {ds : List Char} {n : Nat} {c : Char} (hds : Digits ds n) (hc : c.isDigit = true) :
      Digits (ds ++ [c]) (10 * n + (c.toNat - 48))

/-- A number as it may be written: digits, and at most one plus sign in front of them. -/
inductive Unsigned : List Char → Nat → Prop
  | plain {ds : List Char} {n : Nat} (h : Digits ds n) : Unsigned ds n
  | plus {ds : List Char} {n : Nat} (h : Digits ds n) : Unsigned ('+' :: ds) n

theorem isDigits_iff {ds : List Char} :
    isDigits ds = true ↔ ds ≠ [] ∧ ∀ c ∈ ds, c.isDigit = true := by
  rw [isDigits, Bool.and_eq_true, List.all_eq_true]
  cases ds <;> simp

theorem digitsValue_concat (ds : List Char) (c : Char) :
    digitsValue (ds ++ [c]) = 10 * digitsValue ds + (c.toNat - 48) := by
  rw [digitsValue, Nat.ofDigitChars_append, Nat.ofDigitChars_cons, Nat.ofDigitChars_nil]
  rfl

/-- A run of digits stands for its value. -/
theorem digits_digitsValue {ds : List Char} (h : isDigits ds = true) :
    Digits ds (digitsValue ds) := by
  obtain ⟨hne, hdigits⟩ := isDigits_iff.mp h
  -- from the last digit, as `Digits` is built
  induction ds using List.reverseRecOn with
  | nil => exact absurd rfl hne
  | append_singleton ds c ih =>
    have hc := hdigits c (List.mem_append_right ds List.mem_cons_self)
    rw [digitsValue_concat]
    by_cases hds : ds = []
    · subst hds
      have hzero : 10 * digitsValue [] + (c.toNat - 48) = c.toNat - 48 := by
        rw [digitsValue, Nat.ofDigitChars_nil]
        omega
      rw [hzero]
      exact .single hc
    · have hfront : ∀ d ∈ ds, d.isDigit = true :=
        fun d hd => hdigits d (List.mem_append_left _ hd)
      exact .more (ih (isDigits_iff.mpr ⟨hds, hfront⟩) hds hfront) hc

theorem isDigits_of_digits {ds : List Char} {n : Nat} (h : Digits ds n) :
    isDigits ds = true ∧ digitsValue ds = n := by
  induction h with
  | single hc =>
    refine ⟨isDigits_iff.mpr ⟨List.cons_ne_nil _ _, List.forall_mem_singleton.mpr hc⟩, ?_⟩
    rw [digitsValue, Nat.ofDigitChars_cons, Nat.ofDigitChars_nil, Nat.mul_zero, Nat.zero_add]
    rfl
  | more hds hc ih =>
    obtain ⟨hdigits, hvalue⟩ := ih
    refine ⟨isDigits_iff.mpr ⟨?_, ?_⟩, ?_⟩
    · exact List.append_ne_nil_of_right_ne_nil _ (List.cons_ne_nil _ _)
    · exact List.forall_mem_append.mpr
        ⟨(isDigits_iff.mp hdigits).2, List.forall_mem_singleton.mpr hc⟩
    · rw [digitsValue_concat, hvalue]

/-- No plus sign is a digit, so at most one is taken off. -/
theorem dropPlus_of_isDigits {ds : List Char} (h : isDigits ds = true) : dropPlus ds = ds := by
  unfold dropPlus
  split
  · have hplus := (isDigits_iff.mp h).2 '+' List.mem_cons_self
    exact absurd hplus (by decide)
  · rfl

theorem unsigned_iff {cs : List Char} {n : Nat} :
    Unsigned cs n ↔ isDigits (dropPlus cs) = true ∧ digitsValue (dropPlus cs) = n := by
  constructor
  · intro h
    cases h with
    | plain h =>
      have hdigits := isDigits_of_digits h
      rwa [dropPlus_of_isDigits hdigits.1]
    | plus h => exact isDigits_of_digits h
  · rintro ⟨hdigits, rfl⟩
    have hds := digits_digitsValue hdigits
    unfold dropPlus at hds ⊢
    split at hds
    · exact .plus hds
    · exact .plain hds

/-- Exactly the written numbers below the bound are read. -/
theorem unsigned_eq_some_iff {bound n : Nat} {cs : List Char} :
    unsigned? bound cs = some n ↔ Unsigned cs n ∧ n < bound := by
  rw [unsigned_iff]
  unfold unsigned?
  dsimp only
  split
  · next hcond =>
    rw [Bool.and_eq_true, decide_eq_true_iff] at hcond
    rw [Option.some.injEq]
    constructor
    · rintro rfl
      exact ⟨⟨hcond.1, rfl⟩, hcond.2⟩
    · exact fun h => h.1.2
  · next hcond =>
    refine iff_of_false nofun ?_
    rintro ⟨⟨hdigits, rfl⟩, hlt⟩
    exact hcond (by rw [hdigits, decide_eq_true hlt]; rfl)

theorem unsigned_eq_none_iff {bound : Nat} {cs : List Char} :
    unsigned? bound cs = none ↔ ∀ n < bound, ¬ Unsigned cs n := by
  rw [Option.eq_none_iff_forall_ne_some]
  refine forall_congr' fun n => ?_
  rw [ne_eq, unsigned_eq_some_iff, and_comm, not_and]

theorem unsigned_numeral (n : Nat) : Unsigned (numeral n) n := by
  have h := digits_digitsValue (isDigits_numeral n)
  rw [digitsValue_numeral] at h
  exact .plain h

end LoginAdmission.Text
