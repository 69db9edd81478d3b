/-
  Command lines: commands as an operator types them.

  A line is a verb and its arguments, with blanks between them. Each verb has a long and a short
  spelling, in any letter case; arguments are taken as they stand. `Command.ofLine` reads a line:
  it looks for a verb, then knows it, then counts its arguments, then reads them.
-/
import LoginAdmission.Command
import LoginAdmission.Width

namespace LoginAdmission

open Text

/-- What a line can ask for. -/
inductive Verb where
  | add (list : AccessList)
  | remove (list : AccessList)
  | isIn (list : AccessList)
  | allIn (list : AccessList)
  | clearLogin
  | clearAddress
  | request
  | health
deriving DecidableEq

/-- Why a line is no command. -/
inductive LineError where
  | empty
  | unsupported (verb : String)
  | badArgumentCount (verb : String) (expected got : Nat)
  | badArgument (argument : String)
deriving DecidableEq

/-- The message for a line that is no command. -/
def LineError.message : LineError → String
  | .empty => "empty command"
  | .unsupported verb => "unsupported command: " ++ quoted verb
  | .badArgumentCount verb expected got =>
    "bad argument count for " ++ verb ++ ": expected " ++ decimal expected ++ ", got "
      ++ decimal got
  | .badArgument argument => "bad argument: " ++ quoted argument

namespace Verb

/-- The spellings of the verbs. -/
def spellings : List (String × Verb) := [
  ("whitelistadd", add .allow), ("wladd", add .allow),
  ("whitelistremove", remove .allow), ("wlrm", remove .allow),
  ("whitelistisin", isIn .allow), ("wlisin", isIn .allow),
  ("whitelistallin", allIn .allow), ("wlallin", allIn .allow),
  ("blacklistadd", add .deny), ("bladd", add .deny),
  ("blacklistremove", remove .deny), ("blrm", remove .deny),
  ("blacklistisin", isIn .deny), ("blisin", isIn .deny),
  ("blacklistallin", allIn .deny), ("blallin", allIn .deny),
  ("clearbucketforlogin", clearLogin), ("logincl", clearLogin),
  ("clearbucketforip", clearAddress), ("ipcl", clearAddress),
  ("request", request),
  ("health", health)]

/-- How many arguments a verb takes. -/
def arity : Verb → Nat
  | add _ | remove _ | isIn _ | clearLogin | clearAddress => 1
  | allIn _ | health => 0
  | request => 3

/-- Reads the argument `address/mask`, whose parts are split at the first slash. -/
def subnetArgument (argument : String) : Except LineError (String × UInt8) :=
  match Subnet.splitSlash? argument.toList with
  | none => .error (.badArgument argument)
  | some (ip, mask) =>
    match unsigned? byteBound mask with
    | none => .error (.badArgument argument)
    | some m => .ok (String.ofList ip, UInt8.ofNat m)

/-- The command for a verb, spelled `name`, with its arguments. -/
def command (verb : Verb) (name : String) (arguments : List String) : Except LineError Command :=
  match verb, arguments with
  | add list, [a] => (subnetArgument a).map fun (ip, mask) => .add list ip mask
  | remove list, [a] => (subnetArgument a).map fun (ip, mask) => .remove list ip mask
  | isIn list, [a] => (subnetArgument a).map fun (ip, mask) => .isListed list ip mask
  | allIn list, [] => .ok (.listAll list)
  | clearLogin, [login] => .ok (.resetLogin login)
  | clearAddress, [address] => .ok (.resetAddress address)
  | request, [login, password, address] => .ok (.check ⟨login, password, address⟩)
  | health, [] => .ok .health
  | verb, arguments => .error (.badArgumentCount name verb.arity arguments.length)

end Verb

/-- Reads a line as a command. -/
def Command.ofLine (line : String) : Except LineError Command :=
  match words line.toList with
  | [] => .error .empty
  | verb :: arguments =>
    let name := String.ofList (verb.map Char.toLower)
    match Verb.spellings.lookup name with
    | none => .error (.unsupported name)
    | some v => v.command name (arguments.map String.ofList)

end LoginAdmission
