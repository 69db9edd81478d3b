/-
  Quoted text: how messages show a piece of text that came from outside.

  The text stands between double quotes. A double quote and a backslash get a backslash in front;
  NUL, tab, line feed and carriage return have letters; every other hidden character is written as
  its code point in lower-case hexadecimal; all else stands as it is.
-/
import LoginAdmission.Text.Printable

namespace LoginAdmission.Text

/-- The code point of a character in lower-case hexadecimal, without padding. -/
def hexadecimal (n : Nat) : List Char := Nat.toDigits 16 n

/-- One character as quoted text shows it. -/
def quoteChar (c : Char) : List Char :=
  if c = '\x00' then ['\\', '0']
  else if c = '\t' then ['\\', 't']
  else if c = '\n' then ['\\', 'n']
  else if c = '\r' then ['\\', 'r']
  else if c = '"' then ['\\', '"']
  else if c = '\\' then ['\\', '\\']
  else if isHidden c then ['\\', 'u', '\x7b'] ++ hexadecimal c.toNat ++ ['\x7d']
  else [c]

/-- A text between double quotes, with its hidden characters written out. -/
def quoted (s : String) : String :=
  String.ofList ('"' :: s.toList.flatMap quoteChar ++ ['"'])

end LoginAdmission.Text
