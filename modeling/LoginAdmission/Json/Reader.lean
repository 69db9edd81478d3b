/-
  Reading JSON.

  The grammar is the usual one: blanks are space, tab, line feed and carriage return; a numeral
  has no leading zero and digits on both sides of a point; a text holds no control below U+0020 and
  no unknown escape; nothing follows the last item or member but the closing bracket. A value
  nested in more than 127 others is unreadable. `JsonText.read` reads a whole text.
-/
import LoginAdmission.Json.Basic

namespace LoginAdmission.Json

/-- A blank between two parts. -/
def isSpace (c : Char) : Bool := c == ' ' || c == '\t' || c == '\n' || c == '\r'

/-- Drops the blanks in front. -/
def skipSpace (cs : List Char) : List Char := cs.dropWhile isSpace

/-- The value of a hexadecimal digit. -/
def hexDigit? (c : Char) : Option Nat :=
  if '0' ≤ c ∧ c ≤ '9' then some (c.toNat - '0'.toNat)
  else if 'a' ≤ c ∧ c ≤ 'f' then some (c.toNat - 'a'.toNat + 10)
  else if 'A' ≤ c ∧ c ≤ 'F' then some (c.toNat - 'A'.toNat + 10)
  else none

/-- The unit that four hexadecimal digits write. -/
def unit? (a b c d : Char) : Option Nat := do
  return (((← hexDigit? a) * 16 + (← hexDigit? b)) * 16 + (← hexDigit? c)) * 16 + (← hexDigit? d)

/-- The first unit of a surrogate pair. -/
def isHighUnit (n : Nat) : Bool := 0xD800 ≤ n && n ≤ 0xDBFF

/-- The second unit of a surrogate pair. -/
def isLowUnit (n : Nat) : Bool := 0xDC00 ≤ n && n ≤ 0xDFFF

/-- The character of a surrogate pair. -/
def pairChar (high low : Nat) : Char :=
  Char.ofNat (0x10000 + (high - 0xD800) * 0x400 + (low - 0xDC00))

/-- What a character behind a backslash stands for. -/
def simpleEscape? (c : Char) : Option Char :=
  if c = '"' ∨ c = '\\' ∨ c = '/' then some c
  else if c = 'b' then some '\x08'
  else if c = 'f' then some '\x0c'
  else if c = 'n' then some '\n'
  else if c = 'r' then some '\r'
  else if c = 't' then some '\t'
  else none

/-- A part of a text: a character, or a unit written with hexadecimal digits. -/
inductive Piece where
  | char (c : Char)
  | unit (n : Nat)

/-- The characters that the parts of a text make up; nothing where half a surrogate pair stands
alone. -/
def assemble? : List Piece → Option (List Char)
  | [] => some []
  | .char c :: ps => (assemble? ps).map (c :: ·)
  | .unit n :: ps =>
    if isHighUnit n then
      match ps with
      | .unit m :: ps => if isLowUnit m then (assemble? ps).map (pairChar n m :: ·) else none
      | _ => none
    else if isLowUnit n then none
    else (assemble? ps).map (Char.ofNat n :: ·)

/-- Puts a part in front of a text read so far. -/
def consPiece (p : Piece) (s : List Piece × List Char) : List Piece × List Char := (p :: s.1, s.2)

/-- Reads the inside of a text up to its closing quote, and gives the rest behind it; nothing if it
is malformed. -/
def scanString? : List Char → Option (List Piece × List Char)
  | [] => none
  | '"' :: cs => some ([], cs)
  | '\\' :: 'u' :: a :: b :: c :: d :: cs =>
    match unit? a b c d with
    | none => none
    | some n => (scanString? cs).map (consPiece (.unit n))
  | '\\' :: c :: cs =>
    match simpleEscape? c with
    | none => none
    | some e => (scanString? cs).map (consPiece (.char e))
  | c :: cs =>
    if c = '\\' ∨ c.toNat < 0x20 then none else (scanString? cs).map (consPiece (.char c))

/-- Reads the digits of a numeral before the point: a zero alone, or digits that begin with none. -/
def scanWhole? (cs : List Char) : Option (List Char × List Char) :=
  match cs.span Char.isDigit with
  | ([], _) => none
  | ('0' :: _ :: _, _) => none
  | (ds, rest) => some (ds, rest)

/-- Reads at least one digit. -/
def scanDigits? (cs : List Char) : Option (List Char × List Char) :=
  match cs.span Char.isDigit with
  | ([], _) => none
  | (ds, rest) => some (ds, rest)

/-- Reads the point of a numeral and the digits behind it, if there is a point. -/
def scanFraction? : List Char → Option (List Char × List Char)
  | '.' :: cs => scanDigits? cs
  | cs => some ([], cs)

/-- Reads the exponent of a numeral, if there is one. -/
def scanExponent? : List Char → Option (Option (Bool × List Char) × List Char)
  | c :: cs =>
    if c = 'e' ∨ c = 'E' then
      match cs with
      | '-' :: cs => (scanDigits? cs).map fun (ds, rest) => (some (true, ds), rest)
      | '+' :: cs => (scanDigits? cs).map fun (ds, rest) => (some (false, ds), rest)
      | cs => (scanDigits? cs).map fun (ds, rest) => (some (false, ds), rest)
    else some (none, c :: cs)
  | [] => some (none, [])

/-- Reads a numeral whose sign is known. -/
def scanUnsigned? (negative : Bool) (cs : List Char) : Option (Numeral × List Char) := do
  let (whole, cs) ← scanWhole? cs
  let (fraction, cs) ← scanFraction? cs
  let (exponent, cs) ← scanExponent? cs
  return (⟨negative, whole, fraction, exponent⟩, cs)

/-- Reads a numeral. -/
def scanNumeral? : List Char → Option (Numeral × List Char)
  | '-' :: cs => scanUnsigned? true cs
  | cs => scanUnsigned? false cs

/-- A numeral as a value, which is unreadable if no number is meant. -/
def ofNumeral (n : Numeral) : Json := if n.number?.isSome then number n else unreadable

/-- A value and the rest of the text behind it; no rest where the text stops being JSON. -/
abbrev Scan (α : Type) := α × Option (List Char)

/-- The result of reading a value that is made of characters only. -/
def leaf {α : Type} (make : α → Json) : Option (α × List Char) → Scan Json
  | some (a, rest) => (make a, some rest)
  | none => (broken, none)

/-- A word of the grammar as a value. -/
def word (w : List Char) (j : Json) (cs : List Char) : Scan Json :=
  if w.isPrefixOf cs then (j, some (cs.drop w.length)) else (broken, none)

/-- A text as a value. -/
def ofPieces (ps : List Piece) : Json :=
  match assemble? ps with
  | some cs => string (String.ofList cs)
  | none => unreadable

/-- A text as a key. -/
def keyOfPieces (ps : List Piece) : Option String := (assemble? ps).map String.ofList

/-- A container at a depth that may be nested no further: it is skipped if it is well formed. -/
def tooDeep {α : Type} (s : Scan α) : Scan Json :=
  (if s.2.isSome then unreadable else broken, s.2)

mutual

/-- Reads a value that may hold `depth` more levels. No three steps in a row go without taking a
character, so a fuel of three for each character is enough. -/
def scanValue (fuel depth : Nat) (cs : List Char) : Scan Json :=
  match fuel with
  | 0 => (broken, none)
  | fuel + 1 =>
    match skipSpace cs with
    | [] => (broken, none)
    | '"' :: cs => leaf ofPieces (scanString? cs)
    | '[' :: cs =>
      let items := scanItems fuel (depth - 1) cs
      if depth = 0 then tooDeep items else (array items.1 items.2.isSome, items.2)
    | '\x7b' :: cs =>
      let members := scanMembers fuel (depth - 1) cs
      if depth = 0 then tooDeep members else (object members.1 members.2.isSome, members.2)
    | 'n' :: cs => word "ull".toList null cs
    | 't' :: cs => word "rue".toList (bool true) cs
    | 'f' :: cs => word "alse".toList (bool false) cs
    | cs => leaf ofNumeral (scanNumeral? cs)
termination_by structural fuel

/-- Reads the items of an array behind its bracket. -/
def scanItems (fuel depth : Nat) (cs : List Char) : Scan (List Json) :=
  match fuel with
  | 0 => ([], none)
  | fuel + 1 =>
    match skipSpace cs with
    | ']' :: cs => ([], some cs)
    | cs => scanItem fuel depth cs
termination_by structural fuel

/-- Reads an item and those behind it. -/
def scanItem (fuel depth : Nat) (cs : List Char) : Scan (List Json) :=
  match fuel with
  | 0 => ([], none)
  | fuel + 1 =>
    match scanValue fuel depth cs with
    | (item, none) => ([item], none)
    | (item, some rest) =>
      match skipSpace rest with
      | ']' :: rest => ([item], some rest)
      | ',' :: rest =>
        let items := scanItem fuel depth rest
        (item :: items.1, items.2)
      | _ => ([item], none)
termination_by structural fuel

/-- Reads the members of an object behind its brace. -/
def scanMembers (fuel depth : Nat) (cs : List Char) : Scan (List Member) :=
  match fuel with
  | 0 => ([], none)
  | fuel + 1 =>
    match skipSpace cs with
    | '\x7d' :: cs => ([], some cs)
    | cs => scanMember fuel depth cs
termination_by structural fuel

/-- Reads a member and those behind it. -/
def scanMember (fuel depth : Nat) (cs : List Char) : Scan (List Member) :=
  match fuel with
  | 0 => ([], none)
  | fuel + 1 =>
    match skipSpace cs with
    | '"' :: cs =>
      match scanString? cs with
      | none => ([], none)
      | some (pieces, rest) =>
        let key := keyOfPieces pieces
        match skipSpace rest with
        | ':' :: rest =>
          match scanValue fuel depth rest with
          | (value, none) => ([(key, value)], none)
          | (value, some rest) =>
            match skipSpace rest with
            | '\x7d' :: rest => ([(key, value)], some rest)
            | ',' :: rest =>
              let members := scanMember fuel depth rest
              ((key, value) :: members.1, members.2)
            | _ => ([(key, value)], none)
        | _ => ([(key, broken)], none)
    | _ => ([], none)
termination_by structural fuel

end

/-- How many levels of nesting can be read. -/
def depthLimit : Nat := 127

end Json

/-- Reads a whole text. -/
def JsonText.read (s : String) : JsonText :=
  let cs := s.toList
  match Json.scanValue (3 * cs.length + 3) Json.depthLimit cs with
  | (value, none) => ⟨value, false⟩
  | (value, some rest) => ⟨value, (Json.skipSpace rest).isEmpty⟩

end LoginAdmission
