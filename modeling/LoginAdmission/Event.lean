/-
  Events: what the operations tell the outside about what they did.
-/
import LoginAdmission.Decision
import LoginAdmission.AccessList

namespace LoginAdmission

open Text

/-- Something that happened. -/
inductive Event where
  | evaluated (decision : Decision)
  | added (list : AccessList) (subnet : Subnet) (id : UInt64)
  | removed (list : AccessList) (subnet : Subnet)
  | counterReset (dimension : Dimension)
  | countersFlushed
  | flushFailed
deriving DecidableEq

/-- How an event is shown. -/
def Event.text : Event → String
  | .evaluated d => "evaluated: " ++ d.verdict ++ " (" ++ d.reason.message ++ ")"
  | .added list subnet id =>
    list.name ++ " list: added " ++ subnet.text ++ " (id " ++ decimal id.toNat ++ ")"
  | .removed list subnet => list.name ++ " list: removed " ++ subnet.text
  | .counterReset dimension => dimension.name ++ " counter reset"
  | .countersFlushed => "counters flushed"
  | .flushFailed => "counter flush failed"

end LoginAdmission
