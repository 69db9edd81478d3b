/-
  Steps: what an operation asks of the stores, and what it changes at the site beside that.

  `Session.talk` is the conversation that an operation holds, whatever is made of its result, and
  `Op.touch` is what the operation changes past the conversation. Main statements: `step_site`,
  which tells the calls of a step, its events and the site after it by these two, so that a
  statement about the site needs no other look at the operations, and `step_frame`, which does the
  same for the limits, the timers and the count of handled requests.
-/
import LoginAdmission.Session

namespace LoginAdmission

open Procedure

/-- The site with another database, if its lists are in one and the change is possible. -/
def Site.withDatabase (change : Storage.Database → Option Storage.Database) (s : Site) : Site :=
  match s.stores.lists with
  | .memory _ => s
  | .database db =>
    match change db with
    | some db => { s with stores := { s.stores with lists := .database db } }
    | none => s

/-- A change of the database leaves everything but the lists alone. -/
theorem Site.withDatabase_frame (change : Storage.Database → Option Storage.Database) (s : Site) :
    (s.withDatabase change).stores.counters = s.stores.counters ∧
      (s.withDatabase change).stores.faults = s.stores.faults ∧
      (s.withDatabase change).sink = s.sink := by
  unfold withDatabase
  split
  · exact ⟨rfl, rfl, rfl⟩
  · split <;> exact ⟨rfl, rfl, rfl⟩

/-- A fault answers a request in place of the stores and leaves the site as it is; without one the
stores answer. -/
theorem Site.host_answer_cases (request : Request) (s : Site) :
    (∃ fault ∈ s.stores.faults, fault.hits request = true ∧
      Site.host.answer request s = (.error fault.error, s, [])) ∨
      Site.host.answer request s = ((s.stores.serve request).1,
        { s with stores := (s.stores.serve request).2.1 }, (s.stores.serve request).2.2) := by
  simp only [Site.host, Stores.answer]
  cases hfault : s.stores.faults.find? (·.hits request) with
  | some fault =>
    have hhits := List.find?_some (p := fun f : Fault => f.hits request) hfault
    exact .inl ⟨fault, List.mem_of_find?_eq_some hfault, hhits, rfl⟩
  | none => exact .inr rfl

/-- What an operation changes at the site without asking for it. -/
def Op.touch : Op → Site → Site
  | .setCounter key value, s =>
    { s with stores := { s.stores with counters := s.stores.counters.set key value } }
  | .clearEvents, s =>
    match s.sink with
    | .buffer b => { s with sink := .buffer b.clear }
    | _ => s
  | .fail fault, s => { s with stores := { s.stores with faults := s.stores.faults ++ [fault] } }
  | .heal, s => { s with stores := { s.stores with faults := [] } }
  | .insertRow list id ip mask, s => s.withDatabase (·.insertRaw? list id ip mask)
  | .dropTable list, s => s.withDatabase fun db => some (db.setTable none list)
  | .closeDatabase, s => s.withDatabase fun db => some { db with closed := true }
  | .reattach, s => s.withDatabase fun db => db.reattach.toOption
  | _, s => s

/-- What an operation does to the timers. -/
def Op.reschedule : Op → Schedule → Schedule
  | .start handle millis, t => (Schedule.start? (some t) handle millis).toOption.getD t
  | .advance millis, t => t.advance millis
  | .stop handle, t => t.stop handle
  | _, t => t

namespace Session

/-- The conversation of a command, or of none. -/
def talkRead (s : Session) : Except CommandError Command → Procedure Unit
  | .ok command => (Control.perform s.limits command).map fun _ => ()
  | .error _ => done ()

/-- The conversation that an operation holds, whatever is made of its result. -/
def talk (s : Session) : Op → Procedure Unit
  | .evaluate attempt => (Engine.evaluate s.limits attempt).map fun _ => ()
  | .inList list address => (Engine.inList list address).map fun _ => ()
  | .add list ip mask => (Engine.add list ip mask).map fun _ => ()
  | .remove list ip mask => (Engine.remove list ip mask).map fun _ => ()
  | .listed list ip mask => (Engine.listed list ip mask).map fun _ => ()
  | .listAll list => (Engine.listAll list).map fun _ => ()
  | .resetLogin login => (Engine.resetLogin login).map fun _ => ()
  | .resetAddress address => (Engine.resetAddress address).map fun _ => ()
  | .flush => Engine.flushCounters.map fun _ => ()
  | .check dimension value => (Engine.check s.limits dimension value).map fun _ => ()
  | .gate attempt handler => (Gate.pass s.limits attempt handler).map fun _ => ()
  | .advance millis => flushes (s.schedule.due millis).length
  | .line text => s.talkRead ((Command.ofLine text).mapError .line)
  | .json text => s.talkRead ((Wire.ofText text).mapError .json)
  | .execute _ command => s.talkRead (.ok command)
  | _ => done ()

/-- What an operation asks is told by the limits, and by how many timers come due. -/
theorem talk_congr {s s' : Session} (hlimits : s'.limits = s.limits)
    (hdue : ∀ millis, (s'.schedule.due millis).length = (s.schedule.due millis).length) (op : Op) :
    s'.talk op = s.talk op := by
  have hread : ∀ read, s'.talkRead read = s.talkRead read := by
    intro read
    cases read with
    | ok command => simp only [talkRead, hlimits]
    | error e => rfl
  cases op with
  | evaluate | check | gate => simp only [talk, hlimits]
  | advance millis => simp only [talk, hdue]
  | line | json => exact hread _
  | execute ticket command => exact hread (.ok command)
  | _ => rfl

/-- A step talks with the stores as a procedure does, and leaves the site as that does. -/
def Talks {α : Type} (s : Session) (p : Procedure α) (t : Step) : Prop :=
  t.calls = (p.run Site.host s.site).calls ∧ t.events = (p.run Site.host s.site).events ∧
    t.state.site = (p.run Site.host s.site).state

variable (s : Session)

theorem talks_map {α β : Type} {p : Procedure α} {t : Step} (f : α → β) (h : s.Talks p t) :
    s.Talks (p.map f) t := by
  unfold Talks
  rw [run_map]
  exact h

theorem talks_execute (origin : Origin) (command : Command) :
    s.Talks (Control.perform s.limits command) (s.execute origin command) := by
  unfold Talks execute
  rw [Control.run_carryOut]
  exact ⟨rfl, rfl, rfl⟩

theorem talks_executeRead (read : Except CommandError Command) :
    s.Talks (s.talkRead read) (s.executeRead read) := by
  cases read with
  | ok command => exact s.talks_map _ (talks_execute _ _ command)
  | error e => exact ⟨rfl, rfl, rfl⟩

/-- A change of the database is no conversation. -/
theorem step_withDatabase {change : Storage.Database → Session × Answer}
    (touch : Storage.Database → Option Storage.Database)
    (h : ∀ db, s.site.stores.lists = .database db →
      (change db).1.site = s.site.withDatabase touch) :
    (s.withDatabase change).calls = [] ∧ (s.withDatabase change).events = [] ∧
      (s.withDatabase change).state.site = s.site.withDatabase touch := by
  unfold withDatabase
  cases hlists : s.site.stores.lists with
  | memory lists =>
    refine ⟨rfl, rfl, ?_⟩
    unfold Site.withDatabase
    rw [hlists]
    rfl
  | database db => exact ⟨rfl, rfl, h db hlists⟩

/-- What an operation does at the site: its conversation, and what it changes past that. -/
theorem step_site (op : Op) :
    (s.step op).calls = ((s.talk op).run Site.host s.site).calls ∧
      (s.step op).events = ((s.talk op).run Site.host s.site).events ∧
      (s.step op).state.site = op.touch ((s.talk op).run Site.host s.site).state := by
  cases op with
  | evaluate | inList | add | remove | listed | listAll | resetLogin | resetAddress | flush | check
  | gate => exact s.talks_map _ ⟨rfl, rfl, rfl⟩
  | advance millis => exact ⟨rfl, rfl, rfl⟩
  | execute ticket command => exact s.talks_map _ (s.talks_execute (.ticket ticket) command)
  | line text => exact s.talks_executeRead _
  | json text => exact s.talks_executeRead _
  | start handle millis =>
    simp only [step, start]
    cases Schedule.start? (some s.schedule) handle millis <;> exact ⟨rfl, rfl, rfl⟩
  | events =>
    simp only [step]
    cases s.site.sink <;> exact ⟨rfl, rfl, rfl⟩
  | clearEvents =>
    simp only [step, Op.touch, talk, Procedure.run]
    cases s.site.sink <;> exact ⟨rfl, rfl, rfl⟩
  | insertRow list id ip mask =>
    refine s.step_withDatabase (·.insertRaw? list id ip mask) fun db hdb => ?_
    unfold Site.withDatabase
    rw [hdb]
    dsimp only
    cases db.insertRaw? list id ip mask <;> rfl
  | dropTable list =>
    refine s.step_withDatabase (fun db => some (db.setTable none list)) fun db hdb => ?_
    unfold Site.withDatabase
    rw [hdb]
    rfl
  | closeDatabase =>
    refine s.step_withDatabase (fun db => some { db with closed := true }) fun db hdb => ?_
    unfold Site.withDatabase
    rw [hdb]
    rfl
  | reattach =>
    simp only [step, reattach, Op.touch, talk, Procedure.run, Site.withDatabase]
    cases s.site.stores.lists with
    | memory lists => exact ⟨rfl, rfl, rfl⟩
    | database db =>
      dsimp only
      cases db.reattach with
      | ok db => exact ⟨rfl, rfl, rfl⟩
      | error e => cases e <;> exact ⟨rfl, rfl, rfl⟩
  | _ => exact ⟨rfl, rfl, rfl⟩

/-! ## Beside the site and the books -/

/-- Two sessions that differ at most in their sites and books. -/
def Agrees (s s' : Session) : Prop :=
  s'.limits = s.limits ∧ s'.schedule = s.schedule ∧ s'.handled = s.handled

theorem agrees_executeRead (read : Except CommandError Command) :
    s.Agrees (s.executeRead read).state := by
  cases read <;> exact ⟨rfl, rfl, rfl⟩

theorem agrees_withDatabase {change : Storage.Database → Session × Answer}
    (h : ∀ db, s.Agrees (change db).1) : s.Agrees (s.withDatabase change).state := by
  unfold withDatabase
  cases s.site.stores.lists with
  | memory lists => exact ⟨rfl, rfl, rfl⟩
  | database db => exact h db

/-- No operation changes the limits, only those on timers change the timers, and only the gate
counts the requests that are handled. -/
theorem step_frame (op : Op) :
    (s.step op).state.limits = s.limits ∧
      (s.step op).state.schedule = op.reschedule s.schedule ∧
      ((∀ attempt handler, op ≠ .gate attempt handler) →
        (s.step op).state.handled = s.handled) := by
  have of_agrees : ∀ {s' : Session} {p : Prop}, s.Agrees s' → s'.limits = s.limits ∧
      s'.schedule = s.schedule ∧ (p → s'.handled = s.handled) :=
    fun h => ⟨h.1, h.2.1, fun _ => h.2.2⟩
  cases op with
  | gate attempt handler => exact ⟨rfl, rfl, fun h => absurd rfl (h attempt handler)⟩
  | line text => exact of_agrees (s.agrees_executeRead _)
  | json text => exact of_agrees (s.agrees_executeRead _)
  | start handle millis =>
    simp only [step, start, Op.reschedule]
    cases Schedule.start? (some s.schedule) handle millis <;> exact ⟨rfl, rfl, fun _ => rfl⟩
  | events | clearEvents =>
    simp only [step]
    cases s.site.sink <;> exact ⟨rfl, rfl, fun _ => rfl⟩
  | insertRow list id ip mask =>
    refine of_agrees (s.agrees_withDatabase fun db => ?_)
    cases db.insertRaw? list id ip mask <;> exact ⟨rfl, rfl, rfl⟩
  | dropTable | closeDatabase => exact of_agrees (s.agrees_withDatabase fun db => ⟨rfl, rfl, rfl⟩)
  | reattach =>
    refine of_agrees ?_
    simp only [step, reattach]
    split
    · exact ⟨rfl, rfl, rfl⟩
    · split <;> exact ⟨rfl, rfl, rfl⟩
  | _ => exact ⟨rfl, rfl, fun _ => rfl⟩

/-! ## Evaluations -/

/-- An evaluation answers with a decision just when its procedure ends with that. -/
theorem evaluated_decision_iff {attempt : Attempt} {d : Decision} :
    (s.step (.evaluate attempt)).result = .decision d ↔
      ((Engine.evaluate s.limits attempt).run Site.host s.site).result = .ok d := by
  simp only [step, converse]
  cases ((Engine.evaluate s.limits attempt).run Site.host s.site).result <;>
    simp [Answer.ofResult]

theorem evaluated_failed_iff {attempt : Attempt} {e : Failure} :
    (s.step (.evaluate attempt)).result = .failed e ↔
      ((Engine.evaluate s.limits attempt).run Site.host s.site).result = .error e := by
  simp only [step, converse]
  cases ((Engine.evaluate s.limits attempt).run Site.host s.site).result <;>
    simp [Answer.ofResult]

/-! ## Runs -/

theorem after_append (ops more : List Op) : s.after (ops ++ more) = (s.after ops).after more :=
  List.foldl_append

theorem run_append (ops more : List Op) :
    s.run (ops ++ more) = s.run ops ++ (s.after ops).run more := by
  induction ops generalizing s with
  | nil => rfl
  | cons op ops ih => exact congrArg (_ :: ·) (ih _)

theorem after_limits (ops : List Op) : (s.after ops).limits = s.limits := by
  induction ops generalizing s with
  | nil => rfl
  | cons op ops ih => exact (ih _).trans (s.step_frame op).1

end Session

end LoginAdmission
