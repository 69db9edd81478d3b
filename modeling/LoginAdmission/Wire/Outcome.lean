/-
  The JSON forms of outcomes, tickets and records.

  An outcome is an object whose tag `status` names its kind; the fault of a failed one has the tag
  `kind`.
-/
import LoginAdmission.Wire.Domain
import LoginAdmission.Outcome

namespace LoginAdmission

open Json (Source Reading Layout Fields Tagged)

namespace CommandFault

/-- The layout of a fault with one text. -/
def layout (variant field : String) (make : String → CommandFault) : Layout CommandFault where
  name := "struct variant CommandFailure::" ++ variant
  tests := [(field, Json.test (Json.readString "a string"))]
  build f := do
    let text ← f.get 0 field (Json.readString "a string")
    return make text

/-- How faults are told apart and read. -/
def tagged : Tagged CommandFault where
  tag := "kind"
  name := "internally tagged enum CommandFailure"
  variants := [
    ("invalid_args", (layout "InvalidArgs" "msg" .invalidArguments).variant),
    ("conflict", (layout "Conflict" "msg" .conflict).variant),
    ("not_found", (layout "NotFound" "what" .notFound).variant),
    ("internal", (layout "Internal" "msg" .internal).variant)]

/-- The members of a fault. -/
def fields : CommandFault → List (String × Json)
  | invalidArguments text => [("kind", .string "invalid_args"), ("msg", .string text)]
  | conflict text => [("kind", .string "conflict"), ("msg", .string text)]
  | notFound what => [("kind", .string "not_found"), ("what", .string what)]
  | internal text => [("kind", .string "internal"), ("msg", .string text)]

end CommandFault

instance : Wire CommandFault where
  encode fault := .record fault.fields
  read := CommandFault.tagged.read

namespace Outcome

/-- The layout of an outcome with one field. -/
def layout {α : Type} [Wire α] (variant field : String) (make : α → Outcome) : Layout Outcome where
  name := "struct variant CommandResult::" ++ variant
  tests := [(field, Json.test (Wire.read (α := α) .buffered))]
  build f := do
    let value ← f.get 0 field (Wire.read .buffered)
    return make value

/-- How outcomes are told apart and read. -/
def tagged : Tagged Outcome where
  tag := "status"
  name := "internally tagged enum CommandResult"
  variants := [
    ("ack", Json.readEmpty .acknowledged),
    ("decision", (layout "Decision" "decision" .decision).variant),
    ("added", (layout "Added" "id" .added).variant),
    ("listed", (layout "Listed" "present" .listed).variant),
    ("entries", (layout "Entries" "entries" .entries).variant),
    ("error", (layout "Error" "failure" .failed).variant)]

/-- The members of an outcome. -/
def fields : Outcome → List (String × Json)
  | acknowledged => [("status", .string "ack")]
  | decision d => [("status", .string "decision"), ("decision", Wire.encode d)]
  | added id => [("status", .string "added"), ("id", Wire.encode id)]
  | listed present => [("status", .string "listed"), ("present", Wire.encode present)]
  | entries es => [("status", .string "entries"), ("entries", Wire.encode es)]
  | failed fault => [("status", .string "error"), ("failure", Wire.encode fault)]

end Outcome

instance : Wire Outcome where
  encode outcome := .record outcome.fields
  read := Outcome.tagged.read

/-- The layout of a ticket. Who gave it and when may be missing. -/
def Ticket.layout : Layout Ticket where
  name := "struct CommandMeta"
  tests := [("id", Json.test (Wire.read (α := String) .direct)),
    ("principal", Json.test (Wire.read (α := Option String) .direct)),
    ("timestamp_millis", Json.test (Wire.read (α := Option (BitVec 128)) .direct))]
  build f := do
    let id ← f.get 0 "id" (Wire.read .direct)
    let principal ← f.get? 1 "principal" (Wire.read .direct)
    let timestamp ← f.get? 2 "timestamp_millis" (Wire.read .direct)
    return ⟨id, principal, timestamp⟩

instance : Wire Ticket where
  encode t := .record
    [("id", Wire.encode t.id), ("principal", Wire.encode t.principal),
      ("timestamp_millis", Wire.encode t.timestamp)]
  read := Ticket.layout.read

/-- The layout of an audit record. -/
def AuditRecord.layout : Layout AuditRecord where
  name := "struct AuditRecord"
  tests := ["id", "label", "principal", "status"].map fun name =>
    (name, Json.test (Wire.read (α := String) .direct))
  build f := do
    let id ← f.get 0 "id" (Wire.read .direct)
    let label ← f.get 1 "label" (Wire.read .direct)
    let principal ← f.get 2 "principal" (Wire.read .direct)
    let status ← f.get 3 "status" (Wire.read .direct)
    return ⟨id, label, principal, status⟩

instance : Wire AuditRecord where
  encode r := .record
    [("id", Wire.encode r.id), ("label", Wire.encode r.label),
      ("principal", Wire.encode r.principal), ("status", Wire.encode r.status)]
  read := AuditRecord.layout.read

/-- The layout of a record of the history. -/
def HistoryRecord.layout : Layout HistoryRecord where
  name := "struct HistoryRecord"
  tests := [("meta", Json.test (Wire.read (α := Ticket) .direct)),
    ("label", Json.test (Wire.read (α := String) .direct)),
    ("result", Json.test (Wire.read (α := Outcome) .direct))]
  build f := do
    let ticket ← f.get 0 "meta" (Wire.read .direct)
    let label ← f.get 1 "label" (Wire.read .direct)
    let outcome ← f.get 2 "result" (Wire.read .direct)
    return ⟨ticket, label, outcome⟩

instance : Wire HistoryRecord where
  encode r := .record
    [("meta", Wire.encode r.ticket), ("label", Wire.encode r.label),
      ("result", Wire.encode r.outcome)]
  read := HistoryRecord.layout.read

end LoginAdmission
