/-
  Widths of words: how many numbers fit a word of 8, 64 and 128 bits.
-/

namespace LoginAdmission

/-- The first number that a word of 8 bits cannot hold. -/
def byteBound : Nat := 256

/-- The first number that a word of 64 bits cannot hold. -/
def wordBound : Nat := 18446744073709551616

/-- The first number that a word of 128 bits cannot hold. -/
def wideBound : Nat := 340282366920938463463374607431768211456

/-- The first number that a signed word of 64 bits cannot hold. -/
def signedBound : Nat := 9223372036854775808

example : wordBound = Nat.pow 2 64 ∧ wideBound = Nat.pow 2 128 := ⟨rfl, rfl⟩

theorem signedBound_lt_wordBound : signedBound < wordBound := by decide

end LoginAdmission
