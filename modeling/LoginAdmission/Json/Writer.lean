/-
  Writing JSON: the compact form, without a blank between any two parts.

  In a text a double quote and a backslash get a backslash in front, backspace, form feed, line
  feed, carriage return and tab have letters, and the other controls below U+0020 are written as
  four hexadecimal digits. All other characters stand for themselves.
-/
import LoginAdmission.Json.Basic

namespace LoginAdmission.Json

open Text

/-- A number below 256 as four hexadecimal digits. -/
def fourDigits (n : Nat) : List Char :=
  ['0', '0', Nat.digitChar (n / 16), Nat.digitChar (n % 16)]

/-- One character inside a text. -/
def escapeChar (c : Char) : List Char :=
  if c = '"' then ['\\', '"']
  else if c = '\\' then ['\\', '\\']
  else if c = '\x08' then ['\\', 'b']
  else if c = '\x0c' then ['\\', 'f']
  else if c = '\n' then ['\\', 'n']
  else if c = '\r' then ['\\', 'r']
  else if c = '\t' then ['\\', 't']
  else if c.toNat < 0x20 then '\\' :: 'u' :: fourDigits c.toNat
  else [c]

/-- A text between double quotes. -/
def writeString (s : String) : List Char := '"' :: s.toList.flatMap escapeChar ++ ['"']

/-- A numeral as it was given. -/
def writeNumeral (n : Numeral) : List Char :=
  (if n.negative then ['-'] else []) ++ n.whole
    ++ (if n.fraction.isEmpty then [] else '.' :: n.fraction)
    ++ match n.exponent with
      | none => []
      | some (negative, ds) => 'e' :: (if negative then '-' :: ds else ds)

mutual

/-- The compact form of a value. -/
def write : Json → List Char
  | null => "null".toList
  | bool true => "true".toList
  | bool false => "false".toList
  | number n => writeNumeral n
  | string s => writeString s
  | array items _ => '[' :: writeItems items ++ [']']
  | object members _ => '\x7b' :: writeMembers members ++ ['\x7d']
  | unreadable | broken => []

/-- Items with commas between them. -/
def writeItems : List Json → List Char
  | [] => []
  | [item] => write item
  | item :: items => write item ++ ',' :: writeItems items

/-- Members with commas between them. -/
def writeMembers : List Member → List Char
  | [] => []
  | [(key, value)] => writeString (key.getD "") ++ ':' :: write value
  | (key, value) :: members =>
    writeString (key.getD "") ++ ':' :: write value ++ ',' :: writeMembers members

end

/-- The compact form of a value as a string. -/
def text (j : Json) : String := String.ofList (write j)

end LoginAdmission.Json
