/-
  The JSON form of commands: an object whose tag `cmd` names the kind of command.
-/
import LoginAdmission.Wire.Domain
import LoginAdmission.Command

namespace LoginAdmission

open Json (Source Reading Layout Fields Tagged)

namespace Command

/-- The name of a variant in messages. -/
def variantName (variant : String) : String := "struct variant AdminCommand::" ++ variant

/-- Reads a text field. -/
def readText : Json → Reading String := Json.readString "a string"

/-- The layout of a login attempt. -/
def checkLayout : Layout Command where
  name := variantName "Check"
  tests := [("login", Json.test readText), ("password", Json.test readText),
    ("address", Json.test readText)]
  build f := do
    let login ← f.get 0 "login" readText
    let password ← f.get 1 "password" readText
    let address ← f.get 2 "address" readText
    return .check ⟨login, password, address⟩

/-- Reads the name of a list below a tag. -/
def readList : Json → Reading AccessList := Wire.read .buffered

/-- The layout of a command on a subnet. -/
def subnetLayout (variant : String) (make : AccessList → String → UInt8 → Command) :
    Layout Command where
  name := variantName variant
  tests := [("list", Json.test readList), ("ip", Json.test readText),
    ("mask", Json.test Json.readByte)]
  build f := do
    let list ← f.get 0 "list" readList
    let ip ← f.get 1 "ip" readText
    let mask ← f.get 2 "mask" Json.readByte
    return make list ip mask

/-- The layout of the command that lists all entries. -/
def listAllLayout : Layout Command where
  name := variantName "ListAll"
  tests := [("list", Json.test readList)]
  build f := do
    let list ← f.get 0 "list" readList
    return .listAll list

/-- The layout of a command with one text. -/
def textLayout (variant field : String) (make : String → Command) : Layout Command where
  name := variantName variant
  tests := [(field, Json.test readText)]
  build f := do
    let text ← f.get 0 field readText
    return make text

/-- How commands are told apart and read. -/
def tagged : Tagged Command where
  tag := "cmd"
  name := "internally tagged enum AdminCommand"
  variants := [
    ("check", checkLayout.variant),
    ("add_address", (subnetLayout "AddAddress" .add).variant),
    ("remove_address", (subnetLayout "RemoveAddress" .remove).variant),
    ("is_listed", (subnetLayout "IsListed" .isListed).variant),
    ("list_all", listAllLayout.variant),
    ("reset_login", (textLayout "ResetLogin" "login" .resetLogin).variant),
    ("reset_address", (textLayout "ResetAddress" "address" .resetAddress).variant),
    ("health", Json.readEmpty .health)]

/-- The fields of a command beside its tag. -/
def fields : Command → List (String × Json)
  | check a =>
    [("login", .string a.login), ("password", .string a.password), ("address", .string a.address)]
  | add list ip mask | remove list ip mask | isListed list ip mask =>
    [("list", Wire.encode list), ("ip", .string ip), ("mask", Wire.encode mask)]
  | listAll list => [("list", Wire.encode list)]
  | resetLogin login => [("login", .string login)]
  | resetAddress address => [("address", .string address)]
  | health => []

end Command

instance : Wire Command where
  encode c := .record (("cmd", .string c.label) :: c.fields)
  read := Command.tagged.read

end LoginAdmission
