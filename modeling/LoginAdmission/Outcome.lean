/-
  Outcomes of commands, and the records that are kept of them.

  A command that fails has an outcome too: it names the kind of failure with a text. A record of
  the history keeps the ticket, the name and the outcome of a command; an audit record says under
  which number, by whom and with which status it was carried out.
-/
import LoginAdmission.Command
import LoginAdmission.Failure
import LoginAdmission.Ticket

namespace LoginAdmission

/-- How a command failed. -/
inductive CommandFault where
  | invalidArguments (text : String)
  | conflict (text : String)
  | notFound (what : String)
  | internal (text : String)
deriving DecidableEq

namespace CommandFault

/-- The fault of a command whose operation failed. -/
def ofFailure : Failure → CommandFault
  | .invalid input => .invalidArguments input.message
  | .conflict list subnet => .conflict (conflictMessage list subnet)
  | .notFound list subnet => .notFound (subnet.text ++ " in the " ++ list.name ++ " list")
  | failure => .internal failure.message

/-- The message of a fault. -/
def message : CommandFault → String
  | invalidArguments text | conflict text | internal text => text
  | notFound what => what ++ " not found"

end CommandFault

/-- What came of a command. -/
inductive Outcome where
  | acknowledged
  | decision (decision : Decision)
  | added (id : UInt64)
  | listed (present : Bool)
  | entries (entries : List Entry)
  | failed (fault : CommandFault)
deriving DecidableEq

namespace Outcome

/-- Whether the command failed. -/
def isFailure : Outcome → Bool
  | failed _ => true
  | _ => false

/-- The outcome of a command from the result of its operation. -/
def ofResult : Except Failure Outcome → Outcome
  | .ok outcome => outcome
  | .error e => failed (.ofFailure e)

/-- The status that an audit record gives: whether it went well, or what went wrong. -/
def status : Outcome → String
  | failed fault => "error: " ++ fault.message
  | _ => "ok"

end Outcome

/-- What the history keeps of a command. -/
structure HistoryRecord where
  ticket : Ticket
  label : String
  outcome : Outcome
deriving DecidableEq

/-- What an audit trail keeps of a command. -/
structure AuditRecord where
  id : String
  label : String
  principal : String
  status : String
deriving DecidableEq

end LoginAdmission
