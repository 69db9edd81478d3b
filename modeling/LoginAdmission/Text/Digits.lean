/-
  Decimal numerals: writing a number and reading one back.

  A number is written without leading zeros. Read, it may carry one plus sign and any number of
  leading zeros, and must lie below a bound that the reader states.
-/

namespace LoginAdmission.Text

/-- The decimal numeral of a number. -/
def numeral (n : Nat) : List Char := Nat.toDigits 10 n

/-- The decimal numeral of a number, as a string. -/
def decimal (n : Nat) : String := String.ofList (numeral n)

/-- The number that a run of decimal digits stands for. -/
def digitsValue (ds : List Char) : Nat := Nat.ofDigitChars 10 ds 0

/-- A run of at least one decimal digit and nothing else. -/
def isDigits (cs : List Char) : Bool := !cs.isEmpty && cs.all Char.isDigit

/-- Drops one plus sign at the front. -/
def dropPlus : List Char → List Char
  | '+' :: cs => cs
  | cs => cs

/-- Reads an unsigned number below `bound`: one optional plus, then digits. -/
def unsigned? (bound : Nat) (cs : List Char) : Option Nat :=
  let ds := dropPlus cs
  if isDigits ds && digitsValue ds < bound then some (digitsValue ds) else none

theorem digitsValue_numeral (n : Nat) : digitsValue (numeral n) = n :=
  Nat.ofDigitChars_toDigits (by decide) (by decide)

theorem numeral_ne_nil (n : Nat) : numeral n ≠ [] := Nat.toDigits_ne_nil

theorem isDigit_of_mem_numeral {n : Nat} {c : Char} (h : c ∈ numeral n) : c.isDigit = true :=
  Nat.isDigit_of_mem_toDigits (by decide) (by decide) h

theorem isDigits_numeral (n : Nat) : isDigits (numeral n) = true := by
  unfold isDigits
  rw [Bool.and_eq_true, List.all_eq_true]
  refine ⟨?_, fun c hc => isDigit_of_mem_numeral hc⟩
  cases h : numeral n with
  | nil => exact absurd h (numeral_ne_nil n)
  | cons c cs => rfl

theorem length_numeral_le {n k : Nat} (hk : 0 < k) (h : n < Nat.pow 10 k) :
    (numeral n).length ≤ k :=
  (Nat.length_toDigits_le_iff (by decide) hk).mpr h

/-- Only zero begins with a zero. -/
theorem head_numeral {n : Nat} (h : n ≠ 0) : (numeral n).head? ≠ some '0' := by
  induction n using Nat.strongRecOn with
  | ind n ih =>
    unfold numeral
    by_cases hn : n < 10
    · rw [Nat.toDigits_of_lt_base hn, List.head?_cons]
      exact fun h0 => h (Nat.digitChar_eq_zero.mp (Option.some.inj h0))
    · rw [Nat.toDigits_of_base_le (by decide) (by omega), List.head?_append]
      have hne : n / 10 ≠ 0 := by omega
      have hhead := ih (n / 10) (by omega) hne
      cases hd : (numeral (n / 10)).head? with
      | none => exact absurd (List.head?_eq_none_iff.mp hd) (numeral_ne_nil _)
      | some c =>
        rw [hd] at hhead
        unfold numeral at hd
        rw [hd]
        exact hhead

/-- The value of a digit is written as that digit. -/
theorem numeral_digit {c : Char} (h : c.isDigit = true) :
    c.toNat - 48 < 10 ∧ numeral (c.toNat - 48) = [c] := by
  have hrange : 48 ≤ c.toNat ∧ c.toNat ≤ 57 := by
    simpa [Char.isDigit, UInt32.le_iff_toNat_le] using h
  have hlt : c.toNat - 48 < 10 := by omega
  have hchar : (c.toNat - 48).digitChar = c := by
    rw [← Char.toNat_inj, Nat.toNat_digitChar_of_lt_ten hlt]
    omega
  refine ⟨hlt, ?_⟩
  rw [numeral, Nat.toDigits_of_lt_base hlt, hchar]

/-- Digits behind a numeral continue it, unless that is zero. -/
theorem numeral_ofDigitChars {cs : List Char} (hcs : ∀ c ∈ cs, c.isDigit = true) {n : Nat}
    (hn : 0 < n) : numeral (Nat.ofDigitChars 10 cs n) = numeral n ++ cs := by
  induction cs generalizing n with
  | nil => rw [Nat.ofDigitChars_nil, List.append_nil]
  | cons c cs ih =>
    obtain ⟨hlt, hc⟩ := numeral_digit (hcs c List.mem_cons_self)
    have hnext : numeral (10 * n + (c.toNat - 48)) = numeral n ++ [c] := by
      rw [← hc]
      exact (Nat.toDigits_append_toDigits (by decide) hn hlt).symm
    have hpos : 0 < 10 * n + (c.toNat - 48) := by omega
    rw [Nat.ofDigitChars_cons]
    refine (ih (fun d hd => hcs d (List.mem_cons_of_mem c hd)) hpos).trans ?_
    rw [hnext, List.append_assoc, List.singleton_append]

/-- Digits without a leading zero are the numeral of their value. -/
theorem numeral_digitsValue {cs : List Char} (hcs : isDigits cs = true)
    (hhead : cs.length = 1 ∨ cs.head? ≠ some '0') : numeral (digitsValue cs) = cs := by
  cases cs with
  | nil => cases hcs
  | cons c cs =>
    have hdigits : ∀ d ∈ c :: cs, d.isDigit = true := by
      rw [isDigits, Bool.and_eq_true, List.all_eq_true] at hcs
      exact hcs.2
    obtain ⟨hlt, hc⟩ := numeral_digit (hdigits c List.mem_cons_self)
    have hvalue : digitsValue (c :: cs) = Nat.ofDigitChars 10 cs (c.toNat - 48) := by
      rw [digitsValue, Nat.ofDigitChars_cons, Nat.mul_zero, Nat.zero_add]
      rfl
    rw [hvalue]
    by_cases hzero : c.toNat - 48 = 0
    · have hsingle : cs = [] := by
        rcases hhead with hlength | hhead
        · exact List.eq_nil_of_length_eq_zero (Nat.succ.inj hlength)
        · rw [hzero] at hc
          exact absurd (congrArg List.head? hc).symm hhead
      rw [hsingle, Nat.ofDigitChars_nil, hc]
    · rw [numeral_ofDigitChars (fun d hd => hdigits d (List.mem_cons_of_mem c hd)) (by omega), hc]
      rfl

end LoginAdmission.Text
