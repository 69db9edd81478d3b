/-
  Telemetry: nothing depends on where the events go.

  Main statement: `telemetry_law`, for every session, whatever faults are laid on its stores. With
  another sink behind it each operation gives the same answer, makes the same calls, writes the same
  lines but for those of the sink, and leaves the same session but for the sink. One operation is
  `SameButSink.step`; the operations that look into the sink itself are left out
  (`Op.QueriesSink`).
-/
import Mathlib.Data.List.Forall2
import LoginAdmission.Proofs.Matching
import LoginAdmission.Proofs.Steps

namespace LoginAdmission

/-- An operation that looks into the sink. -/
def Op.QueriesSink : Op → Prop
  | .events | .clearEvents => True
  | _ => False

/-- Two sessions that differ in their sinks alone. -/
def Session.SameButSink (s s' : Session) : Prop := ∃ sink, s' = s.withSink sink

/-- Two steps that cannot be told apart but at the sink. -/
structure StepsSameButSink (t t' : Session.Step) : Prop where
  result : t'.result = t.result
  calls : t'.calls = t.calls
  events : t'.events = t.events
  logs : LogLine.besideSink t'.logs = LogLine.besideSink t.logs
  state : t.state.SameButSink t'.state

/-- What a run does with one sink or the other behind it. -/
structure TelemetryLaw (s : Session) (sink sink' : Sink) (ops : List Op) : Prop where
  /-- Step by step, the runs give the same answers, make the same calls, announce the same events
  and write the same lines, but for those of the sinks. -/
  steps : List.Forall₂ StepsSameButSink ((s.withSink sink).run ops) ((s.withSink sink').run ops)
  /-- They end with the same lists and counters. -/
  stores : ((s.withSink sink').after ops).site.stores = ((s.withSink sink).after ops).site.stores
  /-- They end with the same history and the same audit records. -/
  books : ((s.withSink sink').after ops).books = ((s.withSink sink).after ops).books
  /-- They end with the same timers, and as many requests have reached the handler. -/
  rest : ((s.withSink sink').after ops).schedule = ((s.withSink sink).after ops).schedule ∧
    ((s.withSink sink').after ops).handled = ((s.withSink sink).after ops).handled

/-! ## One operation -/

namespace Session

/-- Sessions whose sites have the same stores, and which are the same beside their sites. -/
theorem SameButSink.of_matches {s s' : Session} (site : s.site.Matches Eq s'.site)
    (limits : s'.limits = s.limits) (books : s'.books = s.books)
    (schedule : s'.schedule = s.schedule) (handled : s'.handled = s.handled) :
    s.SameButSink s' := by
  refine ⟨s'.site.sink, ?_⟩
  obtain ⟨limits', ⟨⟨lists', counters', faults'⟩, sink'⟩, books', schedule', handled'⟩ := s'
  obtain ⟨hlists, hfaults, hcounters⟩ := site
  dsimp only at *
  subst limits books schedule handled hlists hfaults hcounters
  rfl

variable (s : Session) (sink : Sink)

@[simp] theorem withSink_limits : (s.withSink sink).limits = s.limits := rfl

@[simp] theorem withSink_stores : (s.withSink sink).site.stores = s.site.stores := rfl

@[simp] theorem withSink_books : (s.withSink sink).books = s.books := rfl

@[simp] theorem withSink_schedule : (s.withSink sink).schedule = s.schedule := rfl

@[simp] theorem withSink_handled : (s.withSink sink).handled = s.handled := rfl

/-- An answer that does not come from the sink. -/
theorem sameButSink_answered (answer : Answer) :
    StepsSameButSink (s.answered answer) ((s.withSink sink).answered answer) :=
  ⟨rfl, rfl, rfl, rfl, sink, rfl⟩

/-- The same conversation goes the same way. -/
theorem matches_withSink {α : Type} (p : Procedure α) :
    (p.run Site.host s.site).Matches Eq (p.run Site.host (s.withSink sink).site) :=
  Procedure.run_matches Counters.congruence_eq p.asks_about_all ⟨rfl, rfl, rfl⟩

theorem sameButSink_converse {α : Type} (p : Procedure α) (answer : α → Answer) :
    StepsSameButSink (s.converse p answer) ((s.withSink sink).converse p answer) := by
  have t := s.matches_withSink sink p
  exact ⟨congrArg answer t.result, t.calls, t.events, t.logs, .of_matches t.state rfl rfl rfl rfl⟩

theorem sameButSink_gate (attempt : Attempt) (handler : Handler) :
    StepsSameButSink (s.gate attempt handler) ((s.withSink sink).gate attempt handler) := by
  have t := s.matches_withSink sink (Gate.pass s.limits attempt handler)
  simp only [gate, withSink_limits, withSink_handled, t.result]
  exact ⟨rfl, t.calls, t.events, t.logs, .of_matches t.state rfl rfl rfl rfl⟩

theorem sameButSink_execute (origin : Origin) (command : Command) :
    StepsSameButSink (s.execute origin command) ((s.withSink sink).execute origin command) := by
  have t := s.matches_withSink sink (Control.carryOut s.limits origin command)
  simp only [execute, withSink_limits, withSink_books, t.result]
  refine ⟨rfl, t.calls, t.events, ?_, .of_matches t.state rfl rfl rfl rfl⟩
  rw [LogLine.besideSink_append, LogLine.besideSink_append, t.logs]

theorem sameButSink_executeRead (read : Except CommandError Command) :
    StepsSameButSink (s.executeRead read) ((s.withSink sink).executeRead read) := by
  cases read with
  | ok command =>
    exact sameButSink_execute
      { s with books := { s.books with arrivals := s.books.arrivals + 1 } } sink _ command
  | error e => exact s.sameButSink_answered sink _

/-- A change of the database. -/
theorem sameButSink_withDatabase {change change' : Storage.Database → Session × Answer}
    (h : ∀ db, (change db).1.SameButSink (change' db).1 ∧ (change' db).2 = (change db).2) :
    StepsSameButSink (s.withDatabase change) ((s.withSink sink).withDatabase change') := by
  unfold withDatabase
  rw [withSink_stores]
  cases s.site.stores.lists with
  | memory lists => exact s.sameButSink_answered sink _
  | database db =>
    obtain ⟨hstate, hanswer⟩ := h db
    exact ⟨hanswer, rfl, rfl, rfl, hstate⟩

/-- One operation that does not look into the sink. -/
theorem sameButSink_step {op : Op} (hop : ¬ op.QueriesSink) :
    StepsSameButSink (s.step op) ((s.withSink sink).step op) := by
  cases op with
  | events | clearEvents => exact absurd trivial hop
  | evaluate | inList | add | remove | listed | listAll | resetLogin | resetAddress | flush =>
    exact s.sameButSink_converse sink _ _
  | check d value =>
    simp only [step]
    exact s.sameButSink_converse sink _ _
  | gate attempt handler => exact s.sameButSink_gate sink attempt handler
  | advance millis =>
    simp only [step, advance]
    exact sameButSink_converse { s with schedule := s.schedule.advance millis } sink _ _
  | execute ticket command => exact s.sameButSink_execute sink (.ticket ticket) command
  | line | json => exact s.sameButSink_executeRead sink _
  | start handle millis =>
    simp only [step, start, withSink_schedule]
    cases Schedule.start? (some s.schedule) handle millis <;> exact ⟨rfl, rfl, rfl, rfl, sink, rfl⟩
  | insertRow list id ip mask =>
    refine s.sameButSink_withDatabase sink fun db => ?_
    cases db.insertRaw? list id ip mask <;> exact ⟨⟨sink, rfl⟩, rfl⟩
  | dropTable | closeDatabase =>
    simp only [step]
    exact s.sameButSink_withDatabase sink fun db => ⟨⟨sink, rfl⟩, rfl⟩
  | reattach =>
    simp only [step, reattach, withSink_stores]
    cases s.site.stores.lists with
    | memory lists => exact s.sameButSink_answered sink _
    | database db =>
      dsimp only
      cases db.reattach with
      | ok db => exact ⟨rfl, rfl, rfl, rfl, sink, rfl⟩
      | error e => cases e <;> exact ⟨rfl, rfl, rfl, rfl, sink, rfl⟩
  | _ => exact ⟨rfl, rfl, rfl, rfl, sink, rfl⟩

/-! ## A run -/

namespace SameButSink

variable {s s' : Session}

theorem step (h : s.SameButSink s') {op : Op} (hop : ¬ op.QueriesSink) :
    StepsSameButSink (s.step op) (s'.step op) := by
  obtain ⟨sink, rfl⟩ := h
  exact s.sameButSink_step sink hop

theorem run (h : s.SameButSink s') {ops : List Op} (hops : ∀ op ∈ ops, ¬ op.QueriesSink) :
    List.Forall₂ StepsSameButSink (s.run ops) (s'.run ops) ∧
      (s.after ops).SameButSink (s'.after ops) := by
  induction ops generalizing s s' with
  | nil => exact ⟨.nil, h⟩
  | cons op ops ih =>
    obtain ⟨hop, hops⟩ := List.forall_mem_cons.mp hops
    have hstep := h.step hop
    obtain ⟨hrun, hafter⟩ := ih hstep.state hops
    exact ⟨.cons hstep hrun, hafter⟩

end SameButSink

end Session

/-- Whatever sink is behind a session, its operations do the same. -/
theorem telemetry_law (s : Session) (sink sink' : Sink) (ops : List Op)
    (hops : ∀ op ∈ ops, ¬ op.QueriesSink) : TelemetryLaw s sink sink' ops := by
  have hstart : (s.withSink sink).SameButSink (s.withSink sink') := ⟨sink', rfl⟩
  obtain ⟨hrun, sink'', hend⟩ := hstart.run hops
  constructor
  case steps => exact hrun
  case stores => rw [hend]; rfl
  case books => rw [hend]; rfl
  case rest => rw [hend]; exact ⟨rfl, rfl⟩

/-- A buffer with room for one event and a sink that fails, while a flush runs into a fault. -/
theorem telemetry_law_failing :
    let s := Session.create ⟨1, 5, 5⟩ (.memory .empty) .discard (.memory []) 3
    let ops : List Op := [.evaluate ⟨"ann", "pw", "10.0.0.1"⟩, .add .deny "10.0.0.0" 8,
      .gate ⟨"ann", "pw", "10.0.0.1"⟩ .welcoming, .start "minutely" 60000,
      .fail ⟨.flush, "", .unavailable "down"⟩, .advance 60000,
      .execute ⟨"c-1", none, none⟩ (.resetLogin "ann"), .history, .audit]
    (∀ op ∈ ops, ¬ op.QueriesSink) ∧ TelemetryLaw s (.buffer (.ofCapacity 1)) .failing ops := by
  intro s ops
  have hops : ∀ op ∈ ops, ¬ op.QueriesSink := by simp [ops, Op.QueriesSink]
  exact ⟨hops, telemetry_law s _ _ ops hops⟩

end LoginAdmission
