/-
  Tickets: under which number, by whom and when a command is given.

  A command sent by another program brings its ticket along. One typed at the console has none; it
  is told from all others by the serial number of its arrival, and its number and time are issued
  outside this library.
-/

namespace LoginAdmission

/-- The particulars that a command is given with. The time is in milliseconds. -/
structure Ticket where
  id : String
  principal : Option String
  timestamp : Option (BitVec 128)
deriving DecidableEq

/-- Where a command comes from. -/
inductive Origin where
  | ticket (ticket : Ticket)
  | console (serial : Nat)
deriving DecidableEq

/-- Who gave the command, where that is known. -/
def Origin.principal? : Origin → Option String
  | .ticket t => t.principal
  | .console _ => none

/-- The number of a command: the one on its ticket, or the one issued for its arrival. -/
inductive CommandId where
  | stated (text : String)
  | issued (serial : Nat)
deriving DecidableEq

/-- The number of the command that came from here. -/
def Origin.id : Origin → CommandId
  | .ticket t => .stated t.id
  | .console serial => .issued serial

end LoginAdmission
