/-
  Commands and the operations they stand for.

  A command does what its operation does (`Command.operation`), whatever books are kept of it. The
  books hold it once: one entry of the history, and one entry offered to the audit trail. A trail
  that turns the entry away makes the command be reported as failed and changes nothing else.

  Main statement: `control_law`, for every session, so for every kind of lists, every fault, every
  trail and every length of the history. One command is `Session.carried_execute`; it rests on
  `Session.direct_perform`, the conversation that a command and its operation share. A run is
  `Session.SameGround.run`: its commands may be replaced by their operations.
-/
import LoginAdmission.Proofs.Steps

namespace LoginAdmission

open Procedure

/-- The operation that a command stands for. An inquiry after the program's health has none. -/
def Command.operation : Command → Option Op
  | .check attempt => some (.evaluate attempt)
  | .add list ip mask => some (.add list ip mask)
  | .remove list ip mask => some (.remove list ip mask)
  | .isListed list ip mask => some (.listed list ip mask)
  | .listAll list => some (.listAll list)
  | .resetLogin login => some (.resetLogin login)
  | .resetAddress address => some (.resetAddress address)
  | .health => none

/-- The command that an operation carries out, if it is one that does. -/
def Op.command? : Op → Option Command
  | .execute _ command => some command
  | .line text => (Command.ofLine text).toOption
  | .json text => (Wire.ofText text).toOption
  | _ => none

/-- In place of an operation that carries out a command the one that the command stands for, or one
that only looks; any other operation itself. -/
def Op.plain (op : Op) : Op :=
  match op.command? with
  | some command => command.operation.getD .limits
  | none => op

/-! ## Outcomes -/

/-- The kinds of faults. -/
inductive FaultKind where
  | invalidArguments
  | conflict
  | notFound
  | internal
deriving DecidableEq

/-- The kind of a fault. -/
def CommandFault.kind : CommandFault → FaultKind
  | .invalidArguments _ => .invalidArguments
  | .conflict _ => .conflict
  | .notFound _ => .notFound
  | .internal _ => .internal

/-- The kind of fault as which a failure is to be reported. -/
def Failure.faultKind : Failure → FaultKind
  | .invalid _ => .invalidArguments
  | .conflict .. => .conflict
  | .notFound .. => .notFound
  | .storage _ | .settings _ => .internal

/-- The kind of fault in an outcome, if it is a failure. -/
def Outcome.faultKind? : Outcome → Option FaultKind
  | .failed fault => some fault.kind
  | _ => none

/-- An outcome carries the answer of an operation: what it gave when it went well, and else its
failure. A decision that denies is one that went well. -/
def Outcome.Carries : Answer → Outcome → Prop
  | .decision d, outcome => outcome = .decision d
  | .added id, outcome => outcome = .added id
  | .flag present, outcome => outcome = .listed present
  | .entries found, outcome => outcome = .entries found
  | .done, outcome => outcome = .acknowledged
  | .failed e, outcome => outcome = .failed (.ofFailure e)
  | _, _ => False

/-- What becomes of a trail that is offered an entry, and the lines it writes. -/
inductive AuditTrail.Offered (entry : AuditEntry) : AuditTrail → AuditTrail → List LogLine → Prop
  | absent : Offered entry .absent .absent []
  | memory (entries : List AuditEntry) :
    Offered entry (.memory entries) (.memory (entries ++ [entry])) []
  | log : Offered entry .log .log [.audited entry.id entry.label entry.principal entry.status]
  | rejecting : Offered entry .rejecting .rejecting []

namespace Session

/-- A session with another audit trail. -/
def withAudit (s : Session) (trail : AuditTrail) : Session :=
  { s with books := { s.books with audit := trail } }

/-- The operation behind a command, done without the command. -/
def direct (s : Session) (command : Command) : Step :=
  match command.operation with
  | some op => s.step op
  | none => s.answered .done

/-- Where the command of an operation comes from: it brings a ticket, or arrives at the console. -/
def origin (s : Session) : Op → Origin
  | .execute ticket _ => .ticket ticket
  | _ => .console s.books.arrivals

/-- What a step does that carries out a command. -/
structure Carried (s : Session) (origin : Origin) (command : Command) (outcome : Outcome)
    (t : Step) : Prop where
  calls : t.calls = (s.direct command).calls
  events : t.events = (s.direct command).events
  /-- Beside the books the session is left as the operation leaves it. -/
  state : t.state = { (s.direct command).state with books := t.state.books }
  carries : outcome.Carries (s.direct command).result
  /-- The outcome is a fault of some kind just when the operation fails in this way. -/
  kind : ∀ kind, outcome.faultKind? = some kind ↔
    ∃ e, (s.direct command).result = .failed e ∧ e.faultKind = kind
  history : t.state.books.history = s.books.history.push ⟨origin, command.label, outcome⟩
  /-- A command from the console uses up the serial number it is told by. -/
  arrivals : ∀ serial, origin = .console serial → serial < t.state.books.arrivals
  audit : ∃ lines, AuditTrail.Offered
      ⟨origin.id, command.label, origin.principal?.getD "unknown", outcome.status⟩
      s.books.audit t.state.books.audit lines ∧
    t.logs = (s.direct command).logs ++
      .executed origin.id command.label (outcome.faultKind? = none) :: lines
  /-- The audit entry says that the command went well just when its outcome is no fault. -/
  status : outcome.status = "ok" ↔ outcome.faultKind? = none
  accepted : s.books.audit ≠ .rejecting → t.result = .command (.ok outcome)
  rejected : s.books.audit = .rejecting →
    t.result = .command (.error (.audit ("rejected " ++ command.label)))

end Session

/-- What holds of the commands of a session. -/
structure ControlLaw (s : Session) : Prop where
  /-- A command does what its operation does, and is entered into the books once. -/
  carried : ∀ op command, op.command? = some command →
    ∃ outcome, s.Carried (s.origin op) command outcome (s.step op)
  /-- Another audit trail changes nothing of what a command does, nor of the history. -/
  unaudited : ∀ op trail, op.command?.isSome →
    let t := s.step op
    let t' := (s.withAudit trail).step op
    t'.calls = t.calls ∧ t'.events = t.events ∧ t'.state = t.state.withAudit t'.state.books.audit
  /-- A text that cannot be read as a command does nothing. -/
  unreadLine : ∀ text e, Command.ofLine text = .error e →
    s.step (.line text) = s.answered (.command (.error (.line e)))
  unreadJson : ∀ text e, Wire.ofText (α := Command) text = .error e →
    s.step (.json text) = s.answered (.command (.error (.json e)))
  /-- The commands of a run may be replaced by their operations: the stores see the same calls, the
  same events are announced, and the lists and counters end the same. -/
  run : ∀ ops,
    (s.run (ops.map Op.plain)).flatMap (·.calls) = (s.run ops).flatMap (·.calls) ∧
    (s.run (ops.map Op.plain)).flatMap (·.events) = (s.run ops).flatMap (·.events) ∧
    (s.after (ops.map Op.plain)).site = (s.after ops).site

/-! ## What an outcome says -/

namespace Outcome

theorem carries_ofResult {α : Type} {answer : α → Answer} {outcome : α → Outcome}
    (h : ∀ a, (outcome a).Carries (answer a)) (result : Except Failure α) :
    (ofResult (result.map outcome)).Carries (.ofResult answer result) := by
  cases result with
  | ok a => exact h a
  | error e => exact rfl

/-- A fault is of the kind of the failure it reports. -/
theorem kind_ofFailure (e : Failure) : (CommandFault.ofFailure e).kind = e.faultKind := by
  cases e <;> rfl

/-- The kinds of faults tell the failures apart. -/
theorem Carries.faultKind?_iff {answer : Answer} {outcome : Outcome} (h : outcome.Carries answer)
    (kind : FaultKind) :
    outcome.faultKind? = some kind ↔ ∃ e, answer = .failed e ∧ e.faultKind = kind := by
  cases answer <;> simp only [Carries] at h <;> subst h
  case failed e => simp [faultKind?, kind_ofFailure]
  all_goals simp [faultKind?]

theorem not_isFailure (outcome : Outcome) :
    (!outcome.isFailure) = decide (outcome.faultKind? = none) := by
  cases outcome <;> rfl

theorem status_eq_ok_iff (outcome : Outcome) :
    outcome.status = "ok" ↔ outcome.faultKind? = none := by
  cases outcome with
  | failed fault =>
    have hne : "error: " ++ fault.message ≠ "ok" := fun h => by
      simpa using congrArg (fun text => text.toList.head?) h
    simp [status, faultKind?, hne]
  | _ => exact iff_of_true rfl rfl

end Outcome

/-! ## One command -/

namespace Session

/-- A command and its operation hold the same conversation, and the outcome carries the answer. -/
theorem direct_perform (s : Session) (command : Command) :
    let r := (Control.perform s.limits command).run Site.host s.site
    let t := s.direct command
    (Outcome.ofResult r.result).Carries t.result ∧ t.state = { s with site := r.state } ∧
      t.calls = r.calls ∧ t.events = r.events ∧ t.logs = r.logs := by
  cases command with
  | health => exact ⟨rfl, rfl, rfl, rfl, rfl⟩
  | check | add | remove | isListed | listAll | resetLogin | resetAddress =>
    simp only [Control.perform, run_map]
    refine ⟨Outcome.carries_ofResult ?_ _, rfl, rfl, rfl, rfl⟩
    exact fun _ => rfl

theorem offered_enter (b : Books) (origin : Origin) (label : String) (outcome : Outcome) :
    AuditTrail.Offered ⟨origin.id, label, origin.principal?.getD "unknown", outcome.status⟩
      b.audit (b.enter origin label outcome).2.1.audit (b.enter origin label outcome).2.2 := by
  unfold Books.enter AuditTrail.offer AuditEntry.ofOutcome
  cases b.audit with
  | absent => exact .absent
  | memory entries => exact .memory entries
  | log => exact .log
  | rejecting => exact .rejecting

/-- A command that is carried out, with any number of arrivals at the console before it. -/
theorem carried_execute (s : Session) (arrivals : Nat) {origin : Origin} (command : Command)
    (hserial : ∀ serial, origin = .console serial → serial < arrivals) :
    ∃ outcome, s.Carried origin command outcome
      (({ s with books := { s.books with arrivals } } : Session).execute origin command) := by
  obtain ⟨hcarries, hstate, hcalls, hevents, hlogs⟩ := s.direct_perform command
  refine ⟨Outcome.ofResult ((Control.perform s.limits command).run Site.host s.site).result, ?_⟩
  simp only [execute, Control.run_carryOut]
  constructor
  case calls => exact hcalls.symm
  case events => exact hevents.symm
  case state => rw [hstate]
  case carries => exact hcarries
  case kind => exact hcarries.faultKind?_iff
  case history => exact Recent.append_eq_push _ _
  case arrivals => exact hserial
  case audit =>
    refine ⟨_, offered_enter _ origin command.label _, ?_⟩
    rw [hlogs, ← Outcome.not_isFailure]
    exact List.append_assoc ..
  case status => exact Outcome.status_eq_ok_iff _
  case accepted =>
    intro haudit
    simp only [Books.enter]
    cases htrail : s.books.audit with
    | rejecting => exact absurd htrail haudit
    | absent | memory | log => rfl
  case rejected =>
    intro haudit
    simp only [Books.enter, haudit, AuditTrail.offer, AuditEntry.ofOutcome]

variable (s : Session) {op : Op} {command : Command}

theorem executeRead_of_read {ε : Type} {read : Except ε Command} (describe : ε → CommandError)
    (h : read.toOption = some command) :
    s.executeRead (read.mapError describe) = s.executeArrival command := by
  cases read <;> cases h
  rfl

/-- An operation that holds a command carries it out. -/
theorem carried_step (h : op.command? = some command) :
    ∃ outcome, s.Carried (s.origin op) command outcome (s.step op) := by
  have hnext : ∀ serial, Origin.console s.books.arrivals = .console serial →
      serial < s.books.arrivals + 1 := by
    rintro serial ⟨⟩
    exact Nat.lt_succ_self _
  cases op <;> simp only [Op.command?, reduceCtorEq] at h
  case execute ticket c =>
    cases h
    exact s.carried_execute s.books.arrivals command nofun
  case line | json =>
    rw [step, s.executeRead_of_read _ h]
    exact s.carried_execute (s.books.arrivals + 1) command hnext

/-- A command does the same whatever the trail, also when none is kept. -/
theorem unaudited_execute (trail : AuditTrail) (origin : Origin) (command : Command) :
    let t := s.execute origin command
    let t' := (s.withAudit trail).execute origin command
    t'.calls = t.calls ∧ t'.events = t.events ∧ t'.state = t.state.withAudit t'.state.books.audit :=
  ⟨rfl, rfl, rfl⟩

theorem unaudited_step (trail : AuditTrail) (h : op.command? = some command) :
    let t := s.step op
    let t' := (s.withAudit trail).step op
    t'.calls = t.calls ∧ t'.events = t.events ∧
      t'.state = t.state.withAudit t'.state.books.audit := by
  cases op <;> simp only [Op.command?, reduceCtorEq] at h
  case execute ticket c => exact s.unaudited_execute trail _ c
  case line | json =>
    simp only [step, executeRead_of_read _ _ h]
    exact unaudited_execute { s with books := { s.books with arrivals := s.books.arrivals + 1 } }
      trail _ command

/-! ## The books -/

/-- A text that is no command is not entered. -/
theorem books_executeRead {ε : Type} {read : Except ε Command} (describe : ε → CommandError)
    (h : read.toOption = none) :
    (s.executeRead (read.mapError describe)).state.books = s.books := by
  cases read <;> cases h
  rfl

theorem books_withDatabase {change : Storage.Database → Session × Answer}
    (h : ∀ db, (change db).1.books = s.books) : (s.withDatabase change).state.books = s.books := by
  unfold withDatabase
  cases s.site.stores.lists with
  | memory lists => rfl
  | database db => exact h db

/-- Nothing but a command is entered into the books, and nothing but a clearance drops entries. -/
theorem books_step (hcommand : op.command? = none) (hclear : op ≠ .clearHistory) :
    (s.step op).state.books = s.books := by
  cases op with
  | execute ticket command => cases hcommand
  | clearHistory => exact absurd rfl hclear
  | line | json => exact s.books_executeRead _ hcommand
  | start handle millis =>
    simp only [step, start]
    cases Schedule.start? (some s.schedule) handle millis <;> rfl
  | events | clearEvents =>
    simp only [step]
    cases s.site.sink <;> rfl
  | insertRow list id ip mask =>
    refine s.books_withDatabase fun db => ?_
    cases db.insertRaw? list id ip mask <;> rfl
  | dropTable | closeDatabase => exact s.books_withDatabase fun db => rfl
  | reattach =>
    simp only [step, reattach]
    split
    · rfl
    · split <;> rfl
  | _ => rfl

/-! ## A run -/

/-- Two sessions that differ at most in their books and in the number of handled requests. -/
structure SameGround (s s' : Session) : Prop where
  site : s'.site = s.site
  limits : s'.limits = s.limits
  schedule : s'.schedule = s.schedule

theorem talkRead_of_read {ε : Type} {read : Except ε Command} (describe : ε → CommandError)
    (h : read.toOption = some command) :
    s.talkRead (read.mapError describe) = (Control.perform s.limits command).map fun _ => () := by
  cases read <;> cases h
  rfl

/-- An operation that holds a command does nothing beside the conversation. -/
theorem talk_command (h : op.command? = some command) :
    s.talk op = (Control.perform s.limits command).map (fun _ => ()) ∧
      op.touch = id ∧ op.reschedule = id := by
  cases op <;> simp only [Op.command?, reduceCtorEq] at h
  case execute ticket c =>
    cases h
    exact ⟨rfl, rfl, rfl⟩
  case line | json => exact ⟨s.talkRead_of_read _ h, rfl, rfl⟩

/-- The operation of a command holds the same conversation. -/
theorem talk_operation (command : Command) :
    let op := command.operation.getD .limits
    s.talk op = (Control.perform s.limits command).map (fun _ => ()) ∧
      op.touch = id ∧ op.reschedule = id := by
  cases command with
  | health => exact ⟨rfl, rfl, rfl⟩
  | check | add | remove | isListed | listAll | resetLogin | resetAddress =>
    refine ⟨?_, rfl, rfl⟩
    simp only [Control.perform, map_map]
    rfl

theorem talk_plain (op : Op) :
    s.talk op.plain = s.talk op ∧ op.plain.touch = op.touch ∧
      op.plain.reschedule = op.reschedule := by
  unfold Op.plain
  cases h : op.command? with
  | none => exact ⟨rfl, rfl, rfl⟩
  | some command =>
    obtain ⟨htalk, htouch, hreschedule⟩ := s.talk_command h
    obtain ⟨htalk', htouch', hreschedule'⟩ := s.talk_operation command
    exact ⟨htalk'.trans htalk.symm, htouch'.trans htouch.symm, hreschedule'.trans hreschedule.symm⟩

namespace SameGround

variable {s s' : Session}

/-- A command, or the operation it stands for, on sessions of the same ground. -/
theorem step (h : s.SameGround s') (op : Op) :
    (s'.step op.plain).calls = (s.step op).calls ∧
      (s'.step op.plain).events = (s.step op).events ∧
      (s.step op).state.SameGround (s'.step op.plain).state := by
  obtain ⟨hcalls, hevents, hsite⟩ := s.step_site op
  obtain ⟨hcalls', hevents', hsite'⟩ := s'.step_site op.plain
  obtain ⟨hlimits, hschedule, -⟩ := s.step_frame op
  obtain ⟨hlimits', hschedule', -⟩ := s'.step_frame op.plain
  obtain ⟨htalk, htouch, hreschedule⟩ := s'.talk_plain op
  have hsame : s'.talk op = s.talk op :=
    talk_congr h.limits (fun millis => by rw [h.schedule]) op
  rw [htalk, hsame, h.site] at hcalls' hevents' hsite'
  rw [htouch] at hsite'
  rw [hreschedule, h.schedule] at hschedule'
  exact ⟨hcalls'.trans hcalls.symm, hevents'.trans hevents.symm, hsite'.trans hsite.symm,
    hlimits'.trans (h.limits.trans hlimits.symm), hschedule'.trans hschedule.symm⟩

theorem run (h : s.SameGround s') (ops : List Op) :
    (s'.run (ops.map Op.plain)).flatMap (·.calls) = (s.run ops).flatMap (·.calls) ∧
      (s'.run (ops.map Op.plain)).flatMap (·.events) = (s.run ops).flatMap (·.events) ∧
      (s.after ops).SameGround (s'.after (ops.map Op.plain)) := by
  induction ops generalizing s s' with
  | nil => exact ⟨rfl, rfl, h⟩
  | cons op ops ih =>
    obtain ⟨hcalls, hevents, hstate⟩ := h.step op
    obtain ⟨hcalls', hevents', hafter⟩ := ih hstate
    simp only [List.map_cons, Session.run, List.flatMap_cons, hcalls, hcalls', hevents, hevents']
    exact ⟨trivial, trivial, hafter⟩

end SameGround

/-- An operation and the one that stands for its command do the same. -/
theorem step_plain (s : Session) (op : Op) :
    (s.step op.plain).calls = (s.step op).calls ∧ (s.step op.plain).events = (s.step op).events ∧
      (s.step op).state.SameGround (s.step op.plain).state :=
  SameGround.step ⟨rfl, rfl, rfl⟩ op

end Session

/-- The commands of a session do what their operations do, whatever books are kept of them. -/
theorem control_law (s : Session) : ControlLaw s := by
  constructor
  case carried => exact fun op command h => s.carried_step h
  case unaudited =>
    intro op trail h
    obtain ⟨command, hcommand⟩ := Option.isSome_iff_exists.mp h
    exact s.unaudited_step trail hcommand
  case unreadLine =>
    intro text e h
    simp only [Session.step, h]
    rfl
  case unreadJson =>
    intro text e h
    simp only [Session.step, h]
    rfl
  case run =>
    intro ops
    obtain ⟨hcalls, hevents, hafter⟩ := Session.SameGround.run ⟨rfl, rfl, rfl⟩ ops
    exact ⟨hcalls, hevents, hafter.site⟩

end LoginAdmission
