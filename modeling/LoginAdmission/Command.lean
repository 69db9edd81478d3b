/-
  Commands: what an administrator can ask for.

  A command carries its arguments as they were given; they are looked at when it is carried out.
-/
import LoginAdmission.AccessList
import LoginAdmission.Decision

namespace LoginAdmission

open Text

/-- An administrative command. -/
inductive Command where
  | check (attempt : Attempt)
  | add (list : AccessList) (ip : String) (mask : UInt8)
  | remove (list : AccessList) (ip : String) (mask : UInt8)
  | isListed (list : AccessList) (ip : String) (mask : UInt8)
  | listAll (list : AccessList)
  | resetLogin (login : String)
  | resetAddress (address : String)
  | health
deriving DecidableEq

namespace Command

/-- The name of a kind of command, under which it is recorded. -/
def label : Command → String
  | check _ => "check"
  | add .. => "add_address"
  | remove .. => "remove_address"
  | isListed .. => "is_listed"
  | listAll _ => "list_all"
  | resetLogin _ => "reset_login"
  | resetAddress _ => "reset_address"
  | health => "health"

/-- The name of a list in descriptions. -/
def listTitle : AccessList → String
  | .allow => "Allow"
  | .deny => "Deny"

/-- A description: a title, and the fields between braces. -/
def describeFields (title : String) (fields : List (String × String)) : String :=
  title ++ " \x7b "
    ++ String.intercalate ", " (fields.map fun (name, value) => name ++ ": " ++ value) ++ " \x7d"

/-- The description of a subnet command. -/
def describeSubnet (title : String) (list : AccessList) (ip : String) (mask : UInt8) : String :=
  describeFields title
    [("list", listTitle list), ("ip", quoted ip), ("mask", decimal mask.toNat)]

/-- A description of the command for those who look into the program. It hides the password. -/
def describe : Command → String
  | check a =>
    describeFields "Check"
      [("login", quoted a.login), ("password", "Secret(***)"), ("address", quoted a.address)]
  | add list ip mask => describeSubnet "AddAddress" list ip mask
  | remove list ip mask => describeSubnet "RemoveAddress" list ip mask
  | isListed list ip mask => describeSubnet "IsListed" list ip mask
  | listAll list => describeFields "ListAll" [("list", listTitle list)]
  | resetLogin login => describeFields "ResetLogin" [("login", quoted login)]
  | resetAddress address => describeFields "ResetAddress" [("address", quoted address)]
  | health => "Health"

end Command

end LoginAdmission
