/-
  The JSON form of a type: how its values are written, and how they are read.
-/
import LoginAdmission.Json.Reader
import LoginAdmission.Json.Shape
import LoginAdmission.Json.Writer

namespace LoginAdmission

open Json (Source Reading)

/-- A type whose values have a JSON form. -/
class Wire (α : Type) where
  encode : α → Json
  read : Source → Json → Reading α

namespace Wire

variable {α : Type} [Wire α]

/-- The compact JSON text of a value. -/
def text (a : α) : String := (encode a).text

/-- Reads a whole text as a value. What follows the value is looked at last. -/
def ofText (s : String) : Reading α :=
  match read .direct (JsonText.read s).value with
  | .ok a => if (JsonText.read s).ended then .ok a else .error .malformed
  | .error e => .error e

end Wire

instance : Wire String where
  encode := .string
  read _ := Json.readString "a string"

instance : Wire Bool where
  encode := .bool
  read _ := Json.readBool

instance : Wire UInt8 where
  encode n := .nat n.toNat
  read _ := Json.readByte

instance : Wire UInt64 where
  encode n := .nat n.toNat
  read _ := Json.readWord

instance : Wire (BitVec 128) where
  encode n := .nat n.toNat
  read _ := Json.readWide

instance {α : Type} [Wire α] : Wire (Option α) where
  encode
    | none => .null
    | some a => Wire.encode a
  read source := Json.readOption (Wire.read source)

instance {α : Type} [Wire α] : Wire (List α) where
  encode items := .list (items.map Wire.encode)
  read source := Json.readItems (Wire.read source)

end LoginAdmission
