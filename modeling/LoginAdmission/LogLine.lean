/-
  Log lines: what the operations write down for those who run them.

  A line is kept as its cause. Its level, its target and its named fields follow from the cause.
  No line carries a login or a password.
-/
import LoginAdmission.Event
import LoginAdmission.Failure
import LoginAdmission.Ticket

namespace LoginAdmission

open Text

/-- How urgent a line is. -/
inductive Level where
  | debug
  | info
  | warn
  | error
deriving DecidableEq

/-- The name of a level. -/
def Level.name : Level → String
  | .debug => "DEBUG"
  | .info => "INFO"
  | .warn => "WARN"
  | .error => "ERROR"

/-- The value of a field. -/
inductive FieldValue where
  | text (value : String)
  | number (value : Nat)
  | flag (value : Bool)
  | command (id : CommandId)
deriving DecidableEq

/-- One line of the log, by its cause. -/
inductive LogLine where
  | evaluated (address : String) (decision : Decision)
  | evaluationFailed (address : String) (failure : Failure)
  | thresholdExceeded (dimension : Dimension) (check : RateCheck)
  | added (list : AccessList) (subnet : Subnet) (id : UInt64)
  | addFailed (list : AccessList) (subnet : Subnet) (error : StoreError)
  | removed (list : AccessList) (subnet : Subnet)
  | removeFailed (list : AccessList) (subnet : Subnet) (error : StoreError)
  | counterReset (dimension : Dimension)
  | counterResetFailed (dimension : Dimension) (error : StoreError)
  | countersFlushed
  | flushFailed (error : StoreError)
  | periodicStarted (millis : Nat)
  | periodicStopped
  | executed (id : CommandId) (label : String) (ok : Bool)
  | audited (id : CommandId) (label principal status : String)
  | telemetry (event : Event)
  | databaseFailed (text : String)
deriving DecidableEq

namespace LogLine

/-- The level of a line: a failed operation warns, a failed evaluation is an error. -/
def level : LogLine → Level
  | evaluated .. | thresholdExceeded .. => .debug
  | evaluationFailed .. => .error
  | addFailed .. | removeFailed .. | counterResetFailed .. | flushFailed _ | databaseFailed _ =>
    .warn
  | telemetry .flushFailed => .warn
  | _ => .info

/-- The part of the program that a line comes from. -/
def target : LogLine → String
  | evaluated .. | evaluationFailed .. | added .. | addFailed .. | removed .. | removeFailed .. =>
    "bruteguard::engine"
  | thresholdExceeded .. => "bruteguard::rate_limit"
  | counterReset _ | counterResetFailed .. | countersFlushed | flushFailed _ | periodicStarted _
  | periodicStopped => "bruteguard::reset"
  | executed .. => "bruteguard::control"
  | audited .. => "bruteguard::audit"
  | telemetry _ => "bruteguard::telemetry"
  | databaseFailed _ => "bruteguard::sqlite"

/-- What a line says. -/
def message : LogLine → String
  | evaluated .. => "evaluated"
  | evaluationFailed .. => "evaluation failed"
  | thresholdExceeded .. => "threshold exceeded"
  | added .. => "subnet added"
  | addFailed .. => "add to list failed"
  | removed .. => "subnet removed"
  | removeFailed .. => "remove from list failed"
  | counterReset _ => "counter reset"
  | counterResetFailed .. => "counter reset failed"
  | countersFlushed => "counters flushed"
  | flushFailed _ => "counter flush failed"
  | periodicStarted _ => "periodic counter reset started"
  | periodicStopped => "periodic counter reset stopped"
  | executed .. => "command executed"
  | audited .. => "audit"
  | telemetry _ => "guard_event"
  | databaseFailed _ => "sqlite operation failed"

/-- The fields that a line carries beside its message. -/
def details : LogLine → List (String × FieldValue)
  | evaluated address d =>
    [("address", .text address), ("allowed", .flag d.allowed), ("reason", .text d.reason.message)]
  | evaluationFailed address failure =>
    [("address", .text address), ("error", .text failure.message)]
  | thresholdExceeded dimension check =>
    [("dimension", .text dimension.name), ("count", .number check.count.toNat),
      ("limit", .number check.limit.toNat)]
  | added list subnet id =>
    [("list", .text list.name), ("subnet", .text subnet.text), ("id", .number id.toNat)]
  | addFailed list subnet error | removeFailed list subnet error =>
    [("list", .text list.name), ("subnet", .text subnet.text), ("error", .text error.message)]
  | removed list subnet => [("list", .text list.name), ("subnet", .text subnet.text)]
  | counterReset dimension => [("dimension", .text dimension.name)]
  | counterResetFailed dimension error =>
    [("dimension", .text dimension.name), ("error", .text error.message)]
  | flushFailed error => [("error", .text error.message)]
  | periodicStarted millis => [("period_ms", .number millis)]
  | executed id label ok => [("id", .command id), ("label", .text label), ("ok", .flag ok)]
  | audited id label principal status =>
    [("id", .command id), ("label", .text label), ("principal", .text principal),
      ("status", .text status)]
  | telemetry event => [("event", .text event.text)]
  | databaseFailed text => [("error", .text text)]
  | countersFlushed | periodicStopped => []

/-- All fields of a line; what it says stands among them. -/
def fields (line : LogLine) : List (String × FieldValue) :=
  ("message", .text line.message) :: line.details

end LogLine

end LoginAdmission
