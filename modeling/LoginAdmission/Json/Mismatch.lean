/-
  What can be wrong with a JSON value that is read as something else, and the messages for it.
-/
import LoginAdmission.Json.Basic
import LoginAdmission.Text.Quoted

namespace LoginAdmission.Json

open Text

/-- What was found in the place of something else. -/
inductive Found where
  | null
  | bool (value : Bool)
  | number (value : Number)
  | string (value : String)
  | sequence
  | map
deriving DecidableEq

/-- How messages name what was found. -/
def Found.text : Found → String
  | .null => "null"
  | .bool value => "boolean `" ++ (if value then "true" else "false") ++ "`"
  | .number value =>
    (match value with
      | .float .. => "floating point `"
      | _ => "integer `") ++ value.text ++ "`"
  | .string value => "string " ++ quoted value
  | .sequence => "sequence"
  | .map => "map"

/-- Why a value is not of the shape it is read as. -/
inductive Mismatch where
  | missingField (name : String)
  | duplicateField (name : String)
  | unknownVariant (name : String) (known : List String)
  | invalidType (found : Found) (expected : String)
  | invalidValue (found : Found) (expected : String)
  | invalidLength (length : Nat) (expected : String)
  | refused (text : String)
deriving DecidableEq

/-- A name between back quotes. -/
def backQuoted (name : String) : String := "`" ++ name ++ "`"

/-- How messages list the names that are known. -/
def oneOf : List String → String
  | [a] => backQuoted a
  | [a, b] => backQuoted a ++ " or " ++ backQuoted b
  | names => "one of " ++ String.intercalate ", " (names.map backQuoted)

/-- The message of a mismatch. -/
def Mismatch.message : Mismatch → String
  | .missingField name => "missing field " ++ backQuoted name
  | .duplicateField name => "duplicate field " ++ backQuoted name
  | .unknownVariant name known =>
    "unknown variant " ++ backQuoted name ++ ", expected " ++ oneOf known
  | .invalidType found expected => "invalid type: " ++ found.text ++ ", expected " ++ expected
  | .invalidValue found expected => "invalid value: " ++ found.text ++ ", expected " ++ expected
  | .invalidLength length expected =>
    "invalid length " ++ decimal length ++ ", expected " ++ expected
  | .refused text => text

/-- Why a text cannot be read as a value of some type: it is no text of such a kind at all, or the
value it holds has another shape. -/
inductive ReadFault where
  | malformed
  | mismatch (cause : Mismatch)
deriving DecidableEq

/-- The outcome of reading. -/
abbrev Reading (α : Type) := Except ReadFault α

/-- Fails because of a mismatch. -/
def refuse {α : Type} (cause : Mismatch) : Reading α := .error (.mismatch cause)

/-- Names a value that is found in the place of something else. -/
def found : Json → Reading Found
  | null => .ok .null
  | bool b => .ok (.bool b)
  | number n =>
    match n.number? with
    | some x => .ok (.number x)
    | none => .error .malformed
  | string s => .ok (.string s)
  | array _ _ => .ok .sequence
  | object _ _ => .ok .map
  | unreadable | broken => .error .malformed

/-- Fails because another type was expected. -/
def unexpected {α : Type} (j : Json) (expected : String) : Reading α :=
  match found j with
  | .ok f => refuse (.invalidType f expected)
  | .error e => .error e

end LoginAdmission.Json
