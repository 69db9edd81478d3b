/-
  What does not matter when a command line is typed, and what does.

  The blanks of a line part its words and do nothing else. The verb may be typed in small and
  capital letters, and in its long or its short form. Arguments are kept to the letter.

  Main statement: `typing_law`.
-/
import LoginAdmission.Proofs.Commands.Grammar

namespace LoginAdmission

/-- The same character, or the same letter as a small or a capital one. -/
def SameLetter (c d : Char) : Prop := d = c ∨ d = c.toLower ∨ d = c.toUpper

/-- The error with another name for the verb whose arguments were counted. -/
def LineError.renamed (name : String) : LineError → LineError
  | .badArgumentCount _ expected got => .badArgumentCount name expected got
  | e => e

/-- What changes of a command line change nothing, and what changes of its arguments change the
command. -/
structure TypingLaw : Prop where
  /-- A line with the same words and other blanks is read the same. -/
  blanks : ∀ line, ∃ ws, HasWords line ws ∧
    ∀ line', HasWords line' ws → Command.ofLine line' = Command.ofLine line
  /-- So is a line whose verb is typed with other small and capital letters. -/
  letters : ∀ line line' word word' arguments,
    HasWords line (word :: arguments) → HasWords line' (word' :: arguments) →
    List.Forall₂ SameLetter word.toList word'.toList →
    Command.ofLine line' = Command.ofLine line
  /-- Another name of the verb shows in the error for a wrong number of arguments only. -/
  names : ∀ (v : Verb) line line' word word' arguments,
    HasWords line (word :: arguments) → HasWords line' (word' :: arguments) →
    folded word ∈ v.names → folded word' ∈ v.names →
    Command.ofLine line' = (Command.ofLine line).mapError (·.renamed (folded word'))
  /-- Unless a verb takes a subnet, lines with different arguments give different commands. -/
  arguments : ∀ (v : Verb) line line' word word' arguments arguments' c,
    v.parameters ≠ [.subnet] →
    HasWords line (word :: arguments) → HasWords line' (word' :: arguments') →
    folded word ∈ v.names → folded word' ∈ v.names →
    Command.ofLine line = .ok c → Command.ofLine line' = .ok c → arguments' = arguments

/-! ## Small and capital letters -/

/-- The characters that have a small letter. -/
def IsCapital (c : Char) : Prop := 'A'.val ≤ c.val ∧ c.val ≤ 'Z'.val

theorem toLower_of_capital {c : Char} (h : IsCapital c) :
    c.toLower.val = c.val + ('a'.val - 'A'.val) :=
  congrArg Char.val (dif_pos h)

theorem toLower_of_not_capital {c : Char} (h : ¬ IsCapital c) : c.toLower = c := dif_neg h

theorem toLower_toLower (c : Char) : c.toLower.toLower = c.toLower := by
  by_cases h : IsCapital c
  · refine toLower_of_not_capital fun hagain => ?_
    have hval := toLower_of_capital h
    unfold IsCapital at h hagain
    grind [UInt32.le_iff_toNat_le, UInt32.toNat_add]
  · rw [toLower_of_not_capital h, toLower_of_not_capital h]

theorem toLower_toUpper (c : Char) : c.toUpper.toLower = c.toLower := by
  by_cases h : 'a'.val ≤ c.val ∧ c.val ≤ 'z'.val
  · have hval : c.toUpper.val = c.val + ('A'.val - 'a'.val) := by
      unfold Char.toUpper
      rw [dif_pos h]
    have hnot : ¬ IsCapital c := by
      unfold IsCapital
      grind
    have hcapital : IsCapital c.toUpper := by
      unfold IsCapital
      grind [UInt32.le_iff_toNat_le, UInt32.toNat_add]
    apply Char.ext
    rw [toLower_of_capital hcapital, toLower_of_not_capital hnot, hval]
    grind
  · have hsame : c.toUpper = c := dif_neg h
    rw [hsame]

theorem SameLetter.toLower {c d : Char} (h : SameLetter c d) : d.toLower = c.toLower := by
  rcases h with rfl | rfl | rfl
  · rfl
  · exact toLower_toLower c
  · exact toLower_toUpper c

theorem map_toLower_of_sameLetter {cs ds : List Char} (h : List.Forall₂ SameLetter cs ds) :
    ds.map Char.toLower = cs.map Char.toLower := by
  induction h with
  | nil => rfl
  | cons hc _ ih => rw [List.map_cons, List.map_cons, hc.toLower, ih]

namespace Verb

variable {v : Verb} {arguments arguments' : List String} {c : Command}

/-- The name of a verb does not matter but in one error. -/
theorem command_renamed (v : Verb) (name name' : String) (arguments : List String) :
    v.command name' arguments = (v.command name arguments).mapError (·.renamed name') := by
  by_cases hlength : arguments.length = v.parameters.length
  · rcases v.gives_or_bad hlength with ⟨c, hgives⟩ | ⟨htakes, argument, rfl, hbad⟩
    · rw [command_of_gives hgives, command_of_gives hgives]
      rfl
    · rw [command_of_no_argument htakes hbad, command_of_no_argument htakes hbad]
      rfl
  · rw [command_of_length_ne hlength, command_of_length_ne hlength]
    rfl

/-- A command shows the arguments that gave it, to the letter unless they are a subnet. -/
theorem arguments_of_gives (hv : v.parameters ≠ [.subnet]) (h : v.Gives arguments c) :
    arguments = c.arguments := by
  cases h with
  | subnet task list h => cases task <;> exact absurd rfl hv
  | entries | login | address | attempt | health => rfl

end Verb

/-- Blanks, letter case and the choice of a name do not matter, but every argument does. -/
theorem typing_law : TypingLaw where
  blanks line := by
    obtain ⟨ws, h⟩ := exists_words line
    exact ⟨ws, h, fun line' h' => ofLine_of_reading h' (reading_of_ofLine h)⟩
  letters line line' word word' arguments h h' hcase := by
    have hfolded : folded word' = folded word :=
      congrArg String.ofList (map_toLower_of_sameLetter hcase)
    rw [ofLine_cons h, ofLine_cons h', hfolded]
  names v line line' word word' arguments h h' hname hname' := by
    rw [ofLine_of_name h hname, ofLine_of_name h' hname']
    exact v.command_renamed _ _ arguments
  arguments v line line' word word' arguments arguments' c hv h h' hname hname' hc hc' := by
    rw [ofLine_of_name h hname] at hc
    rw [ofLine_of_name h' hname'] at hc'
    rw [Verb.arguments_of_gives hv (Verb.gives_of_command hc),
      Verb.arguments_of_gives hv (Verb.gives_of_command hc')]

end LoginAdmission
