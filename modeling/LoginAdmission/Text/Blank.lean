/-
  Blanks: the characters with property White_Space, and the two ways text is cut at them.

  `trim` drops the blanks at both ends of a text, `words` keeps its maximal runs of other
  characters. What a word holds is never changed.
-/

namespace LoginAdmission.Text

/-- A character with property White_Space. -/
def isBlank (c : Char) : Bool :=
  let n := c.toNat
  (9 ≤ n && n ≤ 13) || n == 0x20 || n == 0x85 || n == 0xA0 || n == 0x1680
    || (0x2000 ≤ n && n ≤ 0x200A) || n == 0x2028 || n == 0x2029 || n == 0x202F || n == 0x205F
    || n == 0x3000

/-- Drops the blanks at the front. -/
def trimLeft (cs : List Char) : List Char := cs.dropWhile isBlank

/-- Drops the blanks at both ends. -/
def trim (cs : List Char) : List Char := (trimLeft (trimLeft cs).reverse).reverse

/-- Whether a text begins inside a word. -/
def beginsWord : List Char → Bool
  | [] => false
  | c :: _ => !isBlank c

/-- Puts a character in front of the words of the text behind it: into the first word when that
text begins with it (`joins`), as a word of its own otherwise. -/
def consWord (c : Char) (joins : Bool) : List (List Char) → List (List Char)
  | [] => [[c]]
  | w :: ws => if joins then (c :: w) :: ws else [c] :: w :: ws

/-- The maximal runs of characters that are not blank, in order. -/
def words : List Char → List (List Char)
  | [] => []
  | c :: cs => if isBlank c then words cs else consWord c (beginsWord cs) (words cs)

theorem words_cons_blank {c : Char} (h : isBlank c = true) (cs : List Char) :
    words (c :: cs) = words cs := by
  simp only [words, h, if_true]

end LoginAdmission.Text
