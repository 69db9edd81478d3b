/-
  Blanks around a text, and blanks between its words.

  `Text.trim` and `Text.words` are told by how a text is put together, without looking at how they
  go through it. A text trims to what stands between its outer blanks. Its words are what stands
  between blanks, and how many blanks these are does not matter.

  Main statements: `trim_eq_iff` and `words_eq_iff`.
-/
import LoginAdmission.Text.Blank
import LoginAdmission.Text.Digits

namespace LoginAdmission.Text

/-- Nothing but blanks, or nothing at all. -/
def IsBlanks (cs : List Char) : Prop := ∀ c ∈ cs, isBlank c = true

/-- A text without blanks. -/
def Unbroken (cs : List Char) : Prop := ∀ c ∈ cs, isBlank c = false

/-- A word: at least one character, and no blank. -/
structure IsWord (w : List Char) : Prop where
  nonempty : w ≠ []
  unbroken : Unbroken w

/-- `cs` is `t` with blanks on both sides, and `t` itself neither begins nor ends with a blank. -/
structure Trims (cs t : List Char) : Prop where
  around : ∃ front back, IsBlanks front ∧ IsBlanks back ∧ cs = front ++ t ++ back
  begins : ∀ c, t.head? = some c → isBlank c = false
  ends : ∀ c, t.getLast? = some c → isBlank c = false

/-- The words `ws` in their order: blanks may stand in front of them and behind them, and what
stands behind a word is nothing or begins with a blank, so at least one blank parts two words. -/
inductive Spaced : List (List Char) → List Char → Prop
  | blanks {gap : List Char} (h : IsBlanks gap) : Spaced [] gap
  | word {gap w rest : List Char} {ws : List (List Char)} (hgap : IsBlanks gap) (hw : IsWord w)
      (hrest : ∀ c, rest.head? = some c → isBlank c = true) (h : Spaced ws rest) :
      Spaced (w :: ws) (gap ++ w ++ rest)

theorem isBlanks_nil : IsBlanks [] := nofun

theorem isBlanks_cons {c : Char} {cs : List Char} :
    IsBlanks (c :: cs) ↔ isBlank c = true ∧ IsBlanks cs := List.forall_mem_cons

theorem isBlanks_reverse {cs : List Char} (h : IsBlanks cs) : IsBlanks cs.reverse :=
  fun c hc => h c (List.mem_reverse.mp hc)

theorem unbroken_cons {c : Char} {cs : List Char} :
    Unbroken (c :: cs) ↔ isBlank c = false ∧ Unbroken cs := List.forall_mem_cons

theorem unbroken_append {cs ds : List Char} :
    Unbroken (cs ++ ds) ↔ Unbroken cs ∧ Unbroken ds := List.forall_mem_append

/-! ## Trimming -/

theorem trimLeft_append {gap : List Char} (h : IsBlanks gap) (cs : List Char) :
    trimLeft (gap ++ cs) = trimLeft cs := List.dropWhile_append_of_pos h

theorem trimLeft_blanks {gap : List Char} (h : IsBlanks gap) : trimLeft gap = [] := by
  have happend := trimLeft_append h []
  rwa [List.append_nil] at happend

/-- A text that begins with no blank loses nothing at the front. -/
theorem trimLeft_of_head {cs : List Char} (h : ∀ c, cs.head? = some c → isBlank c = false) :
    trimLeft cs = cs := by
  cases cs with
  | nil => rfl
  | cons c cs => exact List.dropWhile_cons_of_neg (by simp [h c rfl])

theorem head_trimLeft (cs : List Char) :
    ∀ c, (trimLeft cs).head? = some c → isBlank c = false := by
  intro c hc
  have hhead := List.head?_dropWhile_not isBlank cs
  rw [trimLeft] at hc
  rwa [hc] at hhead

theorem exists_trimLeft (cs : List Char) : ∃ gap, IsBlanks gap ∧ cs = gap ++ trimLeft cs :=
  ⟨cs.takeWhile isBlank, List.all_eq_true.mp List.all_takeWhile,
    List.takeWhile_append_dropWhile.symm⟩

theorem trims_trim (cs : List Char) : Trims cs (trim cs) := by
  obtain ⟨front, hfront, hcs⟩ := exists_trimLeft cs
  obtain ⟨back, hback, hrest⟩ := exists_trimLeft (trimLeft cs).reverse
  have hparts : trimLeft cs = trim cs ++ back.reverse := by
    rw [trim, ← List.reverse_append, ← hrest, List.reverse_reverse]
  refine ⟨⟨front, back.reverse, hfront, isBlanks_reverse hback, ?_⟩, ?_, ?_⟩
  · rw [List.append_assoc, ← hparts]
    exact hcs
  · intro c hc
    refine head_trimLeft cs c ?_
    rw [hparts, List.head?_append, hc, Option.some_or]
  · intro c hc
    rw [trim, List.getLast?_reverse] at hc
    exact head_trimLeft _ c hc

theorem trim_of_trims {cs t : List Char} (h : Trims cs t) : trim cs = t := by
  obtain ⟨⟨front, back, hfront, hback, rfl⟩, hbegins, hends⟩ := h
  have hreverse : ∀ c, t.reverse.head? = some c → isBlank c = false := by
    intro c hc
    exact hends c (List.head?_reverse ▸ hc)
  rw [trim, List.append_assoc, trimLeft_append hfront]
  cases ht : t with
  | nil => rw [List.nil_append, trimLeft_blanks hback]; rfl
  | cons d ds =>
    have hhead : ∀ c, (t ++ back).head? = some c → isBlank c = false := by
      intro c hc
      exact hbegins c (by rwa [ht] at hc ⊢)
    rw [← ht, trimLeft_of_head hhead, List.reverse_append, trimLeft_append (isBlanks_reverse hback),
      trimLeft_of_head hreverse, List.reverse_reverse]

/-- A text trims to what stands between its outer blanks. -/
theorem trim_eq_iff {cs t : List Char} : trim cs = t ↔ Trims cs t :=
  ⟨fun h => h ▸ trims_trim cs, trim_of_trims⟩

/-- Blanks around a text without blanks are all that is dropped. -/
theorem trims_around {front cs back : List Char} (hfront : IsBlanks front) (hback : IsBlanks back)
    (h : Unbroken cs) : Trims (front ++ cs ++ back) cs where
  around := ⟨front, back, hfront, hback, rfl⟩
  begins c hc := h c (List.mem_of_mem_head? hc)
  ends c hc := h c (List.mem_of_mem_getLast? hc)

/-- A text without blanks is left as it is. -/
theorem trims_self {cs : List Char} (h : Unbroken cs) : Trims cs cs := by
  have haround := trims_around isBlanks_nil isBlanks_nil h
  rwa [List.append_nil] at haround

theorem not_isBlank_of_isDigit {c : Char} (h : c.isDigit = true) : isBlank c = false := by
  have hrange : 48 ≤ c.toNat ∧ c.toNat ≤ 57 := Char.isDigit_iff_toNat.mp h
  simp only [isBlank, Bool.or_eq_false_iff, Bool.and_eq_false_iff, beq_eq_false_iff_ne,
    decide_eq_false_iff_not]
  omega

/-- A numeral holds no blanks. -/
theorem unbroken_numeral (n : Nat) : Unbroken (numeral n) :=
  fun _ hc => not_isBlank_of_isDigit (isDigit_of_mem_numeral hc)

theorem Trims.eq_of_unbroken {cs t : List Char} (h : Trims cs t) (hcs : Unbroken cs) : cs = t :=
  (trim_of_trims (trims_self hcs)).symm.trans (trim_of_trims h)

/-! ## Words -/

theorem words_append_blanks {gap : List Char} (h : IsBlanks gap) (cs : List Char) :
    words (gap ++ cs) = words cs := by
  induction gap with
  | nil => rfl
  | cons c gap ih =>
    obtain ⟨hc, hgap⟩ := isBlanks_cons.mp h
    rw [List.cons_append, words_cons_blank hc, ih hgap]

/-- A word at the front is taken whole when what stands behind it does not continue it. -/
theorem words_append_word {w rest : List Char} (hw : IsWord w)
    (hrest : ∀ c, rest.head? = some c → isBlank c = true) :
    words (w ++ rest) = w :: words rest := by
  obtain ⟨hne, hunbroken⟩ := hw
  induction w with
  | nil => exact absurd rfl hne
  | cons c w ih =>
    obtain ⟨hc, hw⟩ := unbroken_cons.mp hunbroken
    rw [List.cons_append, words, if_neg (by simp [hc])]
    -- a word is closed by its last character, which alone sees what stands behind it
    cases w with
    | nil =>
      have hstops : beginsWord rest = false := by
        cases rest with
        | nil => rfl
        | cons d rest => simp [beginsWord, hrest d rfl]
      rw [List.nil_append, hstops]
      cases words rest <;> rfl
    | cons d w =>
      have hd := (unbroken_cons.mp hw).1
      rw [ih (List.cons_ne_nil d w) hw]
      simp [beginsWord, consWord, hd]

theorem words_of_spaced {ws : List (List Char)} {cs : List Char} (h : Spaced ws cs) :
    words cs = ws := by
  induction h with
  | blanks h =>
    have hwords := words_append_blanks h []
    rwa [List.append_nil] at hwords
  | word hgap hw hrest h ih =>
    rw [List.append_assoc, words_append_blanks hgap, words_append_word hw hrest, ih]

/-- A word may stand at the very front. -/
theorem Spaced.front {w rest : List Char} {ws : List (List Char)} (hw : IsWord w)
    (hrest : ∀ c, rest.head? = some c → isBlank c = true) (h : Spaced ws rest) :
    Spaced (w :: ws) (w ++ rest) :=
  @Spaced.word [] w rest ws isBlanks_nil hw hrest h

/-- A blank in front changes no word. -/
theorem Spaced.cons_blank {ws : List (List Char)} {cs : List Char} (h : Spaced ws cs) {c : Char}
    (hc : isBlank c = true) : Spaced ws (c :: cs) := by
  cases h with
  | blanks h => exact .blanks (isBlanks_cons.mpr ⟨hc, h⟩)
  | word hgap hw hrest h => exact .word (isBlanks_cons.mpr ⟨hc, hgap⟩) hw hrest h

/-- A character in front of a word, or in front of a blank or nothing. -/
theorem Spaced.consWord {ws : List (List Char)} {cs : List Char} (h : Spaced ws cs) {c : Char}
    (hc : isBlank c = false) : Spaced (consWord c (beginsWord cs) ws) (c :: cs) := by
  by_cases hjoins : beginsWord cs = true
  · -- the text goes on inside its first word, so no gap stands in front of that
    cases h with
    | blanks h =>
      cases cs with
      | nil => cases hjoins
      | cons d cs => simp [beginsWord, h d List.mem_cons_self] at hjoins
    | @word gap w rest ws hgap hw hrest h =>
      cases gap with
      | nil =>
        rw [hjoins]
        have hword : IsWord (c :: w) :=
          ⟨List.cons_ne_nil c w, unbroken_cons.mpr ⟨hc, hw.unbroken⟩⟩
        exact .front hword hrest h
      | cons d gap => simp [beginsWord, hgap d List.mem_cons_self] at hjoins
  · have hrest : ∀ d, cs.head? = some d → isBlank d = true := by
      intro d hd
      cases cs with
      | nil => cases hd
      | cons e cs =>
        cases hd
        simpa [beginsWord] using hjoins
    have hword : IsWord [c] := ⟨List.cons_ne_nil c [], unbroken_cons.mpr ⟨hc, nofun⟩⟩
    have halone : Text.consWord c (beginsWord cs) ws = [c] :: ws := by
      rw [Bool.not_eq_true] at hjoins
      rw [hjoins]
      cases ws <;> rfl
    rw [halone]
    exact .front hword hrest h

theorem spaced_words (cs : List Char) : Spaced (words cs) cs := by
  induction cs with
  | nil => exact .blanks isBlanks_nil
  | cons c cs ih =>
    unfold words
    split
    · next hc => exact ih.cons_blank hc
    · next hc => exact ih.consWord (Bool.not_eq_true _ ▸ hc)

/-- The words of a text are what stands between its blanks. -/
theorem words_eq_iff {cs : List Char} {ws : List (List Char)} : words cs = ws ↔ Spaced ws cs :=
  ⟨fun h => h ▸ spaced_words cs, words_of_spaced⟩

/-- The words of a text are words. -/
theorem Spaced.isWord {ws : List (List Char)} {cs : List Char} (h : Spaced ws cs) :
    ∀ w ∈ ws, IsWord w := by
  induction h with
  | blanks h => nofun
  | word hgap hw hrest h ih => exact List.forall_mem_cons.mpr ⟨hw, ih⟩

/-- Words with single blanks between them. -/
theorem spaced_intercalate {ws : List (List Char)} (h : ∀ w ∈ ws, IsWord w) :
    Spaced ws ([' '].intercalate ws) := by
  induction ws with
  | nil => exact .blanks isBlanks_nil
  | cons w ws ih =>
    obtain ⟨hw, hws⟩ := List.forall_mem_cons.mp h
    have hrest := ih hws
    cases ws with
    | nil =>
      have hend : ∀ c, ([] : List Char).head? = some c → isBlank c = true := by
        intro c hc
        cases hc
      have hword := Spaced.front hw hend (.blanks isBlanks_nil)
      rw [List.append_nil] at hword
      rwa [List.intercalate_singleton]
    | cons v ws =>
      rw [List.intercalate_cons_cons, List.append_assoc]
      refine .front hw ?_ (hrest.cons_blank (by decide))
      intro c hc
      cases hc
      decide

end LoginAdmission.Text
