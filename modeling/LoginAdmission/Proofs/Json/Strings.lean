/-
  Texts in JSON are read as they were written.

  Each character of a text is written as one part, which stands for that character again: as itself,
  behind a backslash, or as a unit below U+0020. Main statement: `scanString_writeString`.
-/
import LoginAdmission.Json.Reader
import LoginAdmission.Json.Writer

namespace LoginAdmission.Json

/-! ## One character -/

/-- The digits of a number below sixteen are lower-case hexadecimal digits. -/
theorem hexDigit_digitChar : ∀ n < 16, hexDigit? (Nat.digitChar n) = some n := by decide

theorem unit_fourDigits {n : Nat} (h : n < 256) :
    unit? '0' '0' (Nat.digitChar (n / 16)) (Nat.digitChar (n % 16)) = some n := by
  have hhigh := hexDigit_digitChar (n / 16) (by omega)
  have hlow := hexDigit_digitChar (n % 16) (by omega)
  have hzero : hexDigit? '0' = some 0 := by decide
  unfold unit?
  rw [hzero, hhigh, hlow]
  show some (((0 * 16 + 0) * 16 + n / 16) * 16 + n % 16) = some n
  congr 1
  omega

/-- A part that reads and stands for a character. -/
def Spells (written : List Char) (c : Char) : Prop :=
  ∀ rest, ∃ p, scanString? (written ++ rest) = (scanString? rest).map (consPiece p) ∧
    ∀ ps, assemble? (p :: ps) = (assemble? ps).map (c :: ·)

theorem spells_simple {letter c : Char} (hletter : letter ≠ 'u')
    (h : simpleEscape? letter = some c) : Spells ['\\', letter] c := by
  intro rest
  refine ⟨.char c, ?_, fun ps => rfl⟩
  show scanString? ('\\' :: letter :: rest) = _
  rw [scanString?, h]
  rintro a b c d cs hu -
  exact hletter hu

theorem spells_unit {c : Char} (h : c.toNat < 0x20) :
    Spells ('\\' :: 'u' :: fourDigits c.toNat) c := by
  intro rest
  refine ⟨.unit c.toNat, ?_, fun ps => ?_⟩
  · show scanString? ('\\' :: 'u' :: '0' :: '0' :: Nat.digitChar (c.toNat / 16) ::
      Nat.digitChar (c.toNat % 16) :: rest) = _
    rw [scanString?, unit_fourDigits (by omega)]
  · have hhigh : isHighUnit c.toNat = false := by
      unfold isHighUnit
      rw [Bool.and_eq_false_iff]
      exact Or.inl (decide_eq_false (by omega))
    have hlow : isLowUnit c.toNat = false := by
      unfold isLowUnit
      rw [Bool.and_eq_false_iff]
      exact Or.inl (decide_eq_false (by omega))
    rw [assemble?.eq_def]
    dsimp only
    rw [hhigh, hlow, Char.ofNat_toNat]
    rfl

theorem spells_self {c : Char} (hquote : c ≠ '"') (hslash : c ≠ '\\') (h : ¬ c.toNat < 0x20) :
    Spells [c] c := by
  intro rest
  refine ⟨.char c, ?_, fun ps => rfl⟩
  show scanString? (c :: rest) = _
  rw [scanString?]
  · rw [if_neg fun hc => hc.elim hslash h]
  · exact hquote
  · exact fun _ _ _ _ _ hc => absurd hc hslash
  · exact fun _ _ hc => absurd hc hslash

/-- Every character is read as it was written. -/
theorem spells_escapeChar (c : Char) : Spells (escapeChar c) c := by
  unfold escapeChar
  by_cases hquote : c = '"'
  · rw [if_pos hquote]
    subst hquote
    exact spells_simple (by decide) (by decide)
  rw [if_neg hquote]
  by_cases hslash : c = '\\'
  · rw [if_pos hslash]
    subst hslash
    exact spells_simple (by decide) (by decide)
  rw [if_neg hslash]
  -- the five controls that have letters
  iterate 5
    split
    · next hletter =>
      subst hletter
      exact spells_simple (by decide) (by decide)
  split
  · next hcontrol => exact spells_unit hcontrol
  · next hcontrol => exact spells_self hquote hslash hcontrol

/-! ## A text -/

/-- The parts of a text stand for it again. -/
theorem scanString_flatMap (cs rest : List Char) :
    ∃ ps, scanString? (cs.flatMap escapeChar ++ '"' :: rest) = some (ps, rest) ∧
      assemble? ps = some cs := by
  induction cs with
  | nil => exact ⟨[], by rw [List.flatMap_nil, List.nil_append, scanString?], rfl⟩
  | cons c cs ih =>
    obtain ⟨ps, hscan, hps⟩ := ih
    obtain ⟨p, hp, hassemble⟩ := spells_escapeChar c (cs.flatMap escapeChar ++ '"' :: rest)
    refine ⟨p :: ps, ?_, ?_⟩
    · rw [List.flatMap_cons, List.append_assoc, hp, hscan]
      rfl
    · rw [hassemble, hps]
      rfl

/-- A text behind its first quote is read up to its last one. -/
theorem scanString_writeString (s : String) (rest : List Char) :
    ∃ ps, scanString? (s.toList.flatMap escapeChar ++ '"' :: rest) = some (ps, rest) ∧
      ofPieces ps = .string s ∧ keyOfPieces ps = some s := by
  obtain ⟨ps, hscan, hps⟩ := scanString_flatMap s.toList rest
  refine ⟨ps, hscan, ?_, ?_⟩
  · rw [ofPieces, hps]
    exact congrArg string String.ofList_toList
  · rw [keyOfPieces, hps]
    exact congrArg some String.ofList_toList

end LoginAdmission.Json
