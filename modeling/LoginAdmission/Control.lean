/-
  Carrying out commands, and the books that are kept of it.

  `Control.carryOut` turns a command into the operation it stands for. Afterwards its outcome goes
  into the history and is offered to the audit trail. A trail may turn the record away; the command
  is then reported as failed although it was carried out and is in the history.
-/
import LoginAdmission.Command.Line
import LoginAdmission.Engine
import LoginAdmission.Json.Mismatch
import LoginAdmission.Outcome
import LoginAdmission.Recent

namespace LoginAdmission

open Procedure

namespace Control

/-- The operation that a command stands for. -/
def perform (limits : Thresholds) : Command → Procedure (Except Failure Outcome)
  | .check attempt => (Engine.evaluate limits attempt).map (·.map .decision)
  | .add list ip mask => (Engine.add list ip mask).map (·.map .added)
  | .remove list ip mask => (Engine.remove list ip mask).map (·.map fun _ => .acknowledged)
  | .isListed list ip mask => (Engine.listed list ip mask).map (·.map .listed)
  | .listAll list => (Engine.listAll list).map (·.map .entries)
  | .resetLogin login => (Engine.resetLogin login).map (·.map fun _ => .acknowledged)
  | .resetAddress address => (Engine.resetAddress address).map (·.map fun _ => .acknowledged)
  | .health => done (.ok .acknowledged)

/-- Carries out a command and writes down that it was. -/
def carryOut (limits : Thresholds) (origin : Origin) (command : Command) : Procedure Outcome :=
  (perform limits command).bind fun result =>
    let outcome := Outcome.ofResult result
    note (.executed origin.id command.label !outcome.isFailure) (done outcome)

theorem run_carryOut {σ : Type} (host : Host σ) (limits : Thresholds) (origin : Origin)
    (command : Command) (s : σ) :
    (carryOut limits origin command).run host s =
      let t := (perform limits command).run host s
      let outcome := Outcome.ofResult t.result
      ⟨outcome, t.state, t.calls,
        t.logs ++ [.executed origin.id command.label !outcome.isFailure], t.events⟩ := by
  simp [carryOut, run_bind, run]

end Control

/-- What the history holds of a command: where it came from, its name and its outcome. -/
structure JournalEntry where
  origin : Origin
  label : String
  outcome : Outcome
deriving DecidableEq

/-- The record of an entry, given the ticket that is issued for each arrival at the console. -/
def JournalEntry.record (issue : Nat → Ticket) (entry : JournalEntry) : HistoryRecord :=
  match entry.origin with
  | .ticket ticket => ⟨ticket, entry.label, entry.outcome⟩
  | .console serial => ⟨issue serial, entry.label, entry.outcome⟩

/-- What is offered to the audit trail. -/
structure AuditEntry where
  id : CommandId
  label : String
  principal : String
  status : String
deriving DecidableEq

/-- The audit entry of a command. -/
def AuditEntry.ofOutcome (origin : Origin) (label : String) (outcome : Outcome) : AuditEntry :=
  ⟨origin.id, label, origin.principal?.getD "unknown", outcome.status⟩

/-- Where audit entries go: nowhere, into a growing list, into the log; or every one is turned
away. -/
inductive AuditTrail where
  | absent
  | memory (entries : List AuditEntry)
  | log
  | rejecting

/-- The entries that a trail holds. -/
def AuditTrail.entries : AuditTrail → List AuditEntry
  | memory entries => entries
  | _ => []

/-- Offers an entry to a trail: the text of its refusal, if it is turned away, the trail after it,
and the log lines. -/
def AuditTrail.offer (entry : AuditEntry) : AuditTrail → Option String × AuditTrail × List LogLine
  | absent => (none, absent, [])
  | memory entries => (none, memory (entries ++ [entry]), [])
  | log => (none, log, [.audited entry.id entry.label entry.principal entry.status])
  | rejecting => (some ("rejected " ++ entry.label), rejecting, [])

/-- Why a command was not carried out, or is reported as failed though it was. -/
inductive CommandError where
  | line (error : LineError)
  | json (fault : Json.ReadFault)
  | audit (text : String)
deriving DecidableEq

/-- The message of a command error. A text that is no JSON at all has none. -/
def CommandError.message? : CommandError → Option String
  | line error => some ("decode: " ++ error.message)
  | json (.mismatch cause) => some cause.message
  | json .malformed => none
  | audit text => some ("audit: " ++ text)

/-- The books kept of commands: how many came from the console, the history and the audit trail. -/
structure Books where
  arrivals : Nat
  history : Recent JournalEntry
  audit : AuditTrail

/-- Enters the outcome of a command into the books. -/
def Books.enter (b : Books) (origin : Origin) (label : String) (outcome : Outcome) :
    Except CommandError Outcome × Books × List LogLine :=
  let (refusal, audit, lines) := b.audit.offer (.ofOutcome origin label outcome)
  let result := match refusal with
    | none => .ok outcome
    | some text => .error (.audit text)
  (result, { b with history := b.history.append ⟨origin, label, outcome⟩, audit }, lines)

end LoginAdmission
