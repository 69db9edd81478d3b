/-
  Sessions: a running program as a state, and the operations that can be done on it.

  The state holds the stores, where events go, the books of the commands, the timers and the number
  of requests that reached the handler. `step` does one operation: it gives the answer, the state
  after it, the calls that the stores saw, the log lines and the events. `run` does several.
-/
import LoginAdmission.Control
import LoginAdmission.Gate
import LoginAdmission.Inspection
import LoginAdmission.Schedule
import LoginAdmission.Stores
import LoginAdmission.Telemetry
import LoginAdmission.Wire.Command

namespace LoginAdmission

open Storage Procedure

/-- The stores and the sink that the operations work with. -/
structure Site where
  stores : Stores
  sink : Sink

/-- A site answers requests from its stores and passes events to its sink. -/
def Site.host : Host Site where
  answer request s :=
    let (answer, stores, lines) := s.stores.answer request
    (answer, { s with stores }, lines)
  hear event s :=
    let (sink, lines) := s.sink.hear event
    ({ s with sink }, lines)

/-- The state of a running program. -/
structure Session where
  limits : Thresholds
  site : Site
  books : Books
  schedule : Schedule
  handled : Nat

/-- An operation on a session. -/
inductive Op where
  | evaluate (attempt : Attempt)
  | inList (list : AccessList) (address : String)
  | add (list : AccessList) (ip : String) (mask : UInt8)
  | remove (list : AccessList) (ip : String) (mask : UInt8)
  | listed (list : AccessList) (ip : String) (mask : UInt8)
  | listAll (list : AccessList)
  | resetLogin (login : String)
  | resetAddress (address : String)
  | flush
  | limits
  | check (dimension : Dimension) (value : String)
  | setCounter (key : String) (value : UInt64)
  | counters (keys : List String)
  | events
  | clearEvents
  | gate (attempt : Attempt) (handler : Handler)
  | start (handle : String) (millis : Nat)
  | advance (millis : Nat)
  | stop (handle : String)
  | finished (handle : String)
  | line (text : String)
  | json (text : String)
  | execute (ticket : Ticket) (command : Command)
  | history
  | clearHistory
  | audit
  | describe
  | fail (fault : Fault)
  | heal
  | insertRow (list : AccessList) (id : Option Int) (ip mask : Cell)
  | dropTable (list : AccessList)
  | closeDatabase
  | reattach

/-- The answer to an operation. -/
inductive Answer where
  | done
  | rejected
  | failed (failure : Failure)
  | storeFailed (error : StoreError)
  | decision (decision : Decision)
  | flag (value : Bool)
  | added (id : UInt64)
  | entries (entries : List Entry)
  | limits (thresholds : Thresholds)
  | checked (check : RateCheck)
  | counters (values : List (String × UInt64)) (tracked : Nat)
  | events (events : List Event) (evicted : Nat)
  | passage (reply : Except GateError String) (handled : Nat)
  | command (result : Except CommandError Outcome)
  | history (entries : List JournalEntry)
  | audit (entries : List AuditEntry)
  | description (texts : List (String × String))

/-- The answer to an operation that may fail. -/
def Answer.ofResult {α : Type} (make : α → Answer) : Except Failure α → Answer
  | .ok a => make a
  | .error e => .failed e

namespace Session

/-- What is seen of one step. -/
abbrev Step := Transcript Session Answer

/-- A session at time zero, with no counter written and no command given. -/
def create (limits : Thresholds) (lists : ListStore) (sink : Sink) (audit : AuditTrail)
    (historyCapacity : Nat) : Session where
  limits := limits
  site := ⟨⟨lists, .empty, []⟩, sink⟩
  books := ⟨0, .ofCapacity historyCapacity, audit⟩
  schedule := .empty
  handled := 0

/-- A step that only answers. -/
def answered (s : Session) (answer : Answer) : Step := ⟨answer, s, [], [], []⟩

/-- A step that holds the conversation of a procedure. -/
def converse {α : Type} (s : Session) (p : Procedure α) (answer : α → Answer) : Step :=
  let t := p.run Site.host s.site
  ⟨answer t.result, { s with site := t.state }, t.calls, t.logs, t.events⟩

/-- Replaces the stores. -/
def withStores (s : Session) (stores : Stores) : Session :=
  { s with site := { s.site with stores } }

/-- Replaces the sink. -/
def withSink (s : Session) (sink : Sink) : Session := { s with site := { s.site with sink } }

/-- Replaces the lists. -/
def withLists (s : Session) (lists : ListStore) : Session :=
  s.withStores { s.site.stores with lists }

/-- The given number of flushes, one after the other. -/
def flushes : Nat → Procedure Unit
  | 0 => done ()
  | n + 1 => Engine.flush.bind fun _ => flushes n

/-- Time passes: the flushes that come due are done in their order. -/
def advance (s : Session) (millis : Nat) : Step :=
  { s with schedule := s.schedule.advance millis }.converse
    (flushes (s.schedule.due millis).length) fun _ => .done

/-- Starts the timer of a handle, in place of one that runs. -/
def start (s : Session) (handle : String) (millis : Nat) : Step :=
  match Schedule.start? (some s.schedule) handle millis with
  | .error e => s.answered (.failed (.settings e))
  | .ok schedule =>
    let stopped := if s.schedule.isRunning handle then [LogLine.periodicStopped] else []
    ⟨.done, { s with schedule }, [], .periodicStarted millis :: stopped, []⟩

/-- Stops the timer of a handle, if one runs. -/
def stop (s : Session) (handle : String) : Step :=
  ⟨.done, { s with schedule := s.schedule.stop handle }, [],
    if s.schedule.isRunning handle then [.periodicStopped] else [], []⟩

/-- Takes a request through the gate. -/
def gate (s : Session) (attempt : Attempt) (handler : Handler) : Step :=
  let t := (Gate.pass s.limits attempt handler).run Site.host s.site
  let handled := if t.result.handled then s.handled + 1 else s.handled
  ⟨.passage t.result.reply handled, { s with site := t.state, handled }, t.calls, t.logs, t.events⟩

/-- Carries out a command and enters it into the books. -/
def execute (s : Session) (origin : Origin) (command : Command) : Step :=
  let t := (Control.carryOut s.limits origin command).run Site.host s.site
  let (result, books, lines) := s.books.enter origin command.label t.result
  ⟨.command result, { s with site := t.state, books }, t.calls, t.logs ++ lines, t.events⟩

/-- Carries out a command that came without a ticket. -/
def executeArrival (s : Session) (command : Command) : Step :=
  { s with books := { s.books with arrivals := s.books.arrivals + 1 } }.execute
    (.console s.books.arrivals) command

/-- The step of a text that could not be read as a command, or of the command in it. -/
def executeRead (s : Session) : Except CommandError Command → Step
  | .ok command => s.executeArrival command
  | .error e => s.answered (.command (.error e))

/-- Changes the database of a session that has one. -/
def withDatabase (s : Session) (change : Database → Session × Answer) : Step :=
  match s.site.stores.lists with
  | .database db =>
    let (s', answer) := change db
    s'.answered answer
  | .memory _ => s.answered .rejected

/-- Connects to the database anew. -/
def reattach (s : Session) : Step :=
  match s.site.stores.lists with
  | .memory _ => s.answered .rejected
  | .database db =>
    match db.reattach with
    | .ok db => (s.withLists (.database db)).answered .done
    | .error e => ⟨.storeFailed e.toStoreError, s, [], e.lines, []⟩

/-- Does one operation. -/
def step (s : Session) : Op → Step
  | .evaluate attempt => s.converse (Engine.evaluate s.limits attempt) (.ofResult .decision)
  | .inList list address => s.converse (Engine.inList list address) (.ofResult .flag)
  | .add list ip mask => s.converse (Engine.add list ip mask) (.ofResult .added)
  | .remove list ip mask => s.converse (Engine.remove list ip mask) (.ofResult fun _ => .done)
  | .listed list ip mask => s.converse (Engine.listed list ip mask) (.ofResult .flag)
  | .listAll list => s.converse (Engine.listAll list) (.ofResult .entries)
  | .resetLogin login => s.converse (Engine.resetLogin login) (.ofResult fun _ => .done)
  | .resetAddress address => s.converse (Engine.resetAddress address) (.ofResult fun _ => .done)
  | .flush => s.converse Engine.flushCounters (.ofResult fun _ => .done)
  | .limits => s.answered (.limits s.limits)
  | .check dimension value => s.converse (Engine.check s.limits dimension value) fun
    | .ok check => .checked check
    | .error e => .storeFailed e
  | .setCounter key value =>
    let stores := s.site.stores
    (s.withStores { stores with counters := stores.counters.set key value }).answered .done
  | .counters keys =>
    let counters := s.site.stores.counters
    s.answered (.counters (keys.map fun key => (key, counters.value key)) counters.tracked)
  | .events =>
    match s.site.sink with
    | .buffer b => s.answered (.events b.recent.items b.evicted.toNat)
    | _ => s.answered .rejected
  | .clearEvents =>
    match s.site.sink with
    | .buffer b => (s.withSink (.buffer b.clear)).answered .done
    | _ => s.answered .rejected
  | .gate attempt handler => s.gate attempt handler
  | .start handle millis => s.start handle millis
  | .advance millis => s.advance millis
  | .stop handle => s.stop handle
  | .finished handle => s.answered (.flag !(s.schedule.isRunning handle))
  | .line text => s.executeRead ((Command.ofLine text).mapError .line)
  | .json text => s.executeRead ((Wire.ofText text).mapError .json)
  | .execute ticket command => s.execute (.ticket ticket) command
  | .history => s.answered (.history s.books.history.items)
  | .clearHistory =>
    { s with books := { s.books with history := s.books.history.clear } }.answered .done
  | .audit => s.answered (.audit s.books.audit.entries)
  | .describe => s.answered (.description (Inspection.all s.limits))
  | .fail fault =>
    let stores := s.site.stores
    (s.withStores { stores with faults := stores.faults ++ [fault] }).answered .done
  | .heal => (s.withStores { s.site.stores with faults := [] }).answered .done
  | .insertRow list id ip mask => s.withDatabase fun db =>
    match db.insertRaw? list id ip mask with
    | some db => (s.withLists (.database db), .done)
    | none => (s, .rejected)
  | .dropTable list => s.withDatabase fun db =>
    (s.withLists (.database (db.setTable none list)), .done)
  | .closeDatabase => s.withDatabase fun db =>
    (s.withLists (.database { db with closed := true }), .done)
  | .reattach => s.reattach

/-- Does operations one after the other. -/
def run (s : Session) : List Op → List Step
  | [] => []
  | op :: ops =>
    let t := s.step op
    t :: run t.state ops

/-- The state after operations are done one after the other. -/
def after (s : Session) (ops : List Op) : Session := ops.foldl (fun s op => (s.step op).state) s

end Session

end LoginAdmission
