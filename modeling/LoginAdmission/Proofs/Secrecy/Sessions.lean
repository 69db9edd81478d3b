/-
  Credentials stay inside: what is written down of a session does not depend on them.

  Main statement: `secrecy_law`, for runs of operations that carry their logins and passwords as
  such (`Op.Typed`). A run of the renamed operations writes the same log lines, announces the same
  events, keeps the same history and the same audit trail and gives the same answers, but for the
  reply of the handler behind the gate; its calls differ in the keys of logins and passwords alone.
  Each operation keeps two sessions alike (`Session.Alike.step`).
-/
import Mathlib.Logic.Equiv.Basic
import LoginAdmission.Proofs.Passage
import LoginAdmission.Proofs.Secrecy.Renaming

namespace LoginAdmission

open Procedure

/-- An operation that carries its logins and passwords as such. The others name a counter by its
bare key, carry a command as a text, or lay a fault. -/
def Op.Typed : Op → Prop
  | .setCounter .. | .counters _ | .line _ | .json _ | .fail _ => False
  | _ => True

/-- The operation with other logins and passwords in it. -/
def Op.rename (ρ : Renaming) : Op → Op
  | .evaluate attempt => .evaluate (attempt.rename ρ)
  | .gate attempt handler => .gate (attempt.rename ρ) handler
  | .execute ticket command => .execute ticket (command.rename ρ)
  | .resetLogin login => .resetLogin (ρ.login login)
  | .check dimension value => .check dimension (ρ.value dimension value)
  | op => op

/-- Two sessions that differ in their counters alone, and there by the renaming. The history and the
audit trail stand in the books. -/
structure Session.Alike (ρ : Renaming) (s s' : Session) : Prop where
  site : s.site.Alike ρ s'.site
  limits : s'.limits = s.limits
  books : s'.books = s.books
  schedule : s'.schedule = s.schedule
  handled : s'.handled = s.handled

/-- The answers to an operation and to the renamed one: the same, or else what the handler behind
the gate replied to the two requests. -/
inductive Answer.Alike (ρ : Renaming) : Op → Answer → Answer → Prop
  | same {op : Op} (answer : Answer) : Alike ρ op answer answer
  | replied (attempt : Attempt) (handler : Handler) (handled : Nat) :
    Alike ρ (.gate attempt handler)
      (.passage ((handler.reply attempt).mapError .inner) handled)
      (.passage ((handler.reply (attempt.rename ρ)).mapError .inner) handled)

/-- The steps of an operation and of the renamed one cannot be told apart by what is written down of
them, nor by their answers but for the reply of the handler behind the gate. Equal log lines have
the same level, target and fields, equal events the same text. -/
structure StepsAlike (ρ : Renaming) (op : Op) (t t' : Session.Step) : Prop where
  logs : t'.logs = t.logs
  events : t'.events = t.events
  result : Answer.Alike ρ op t.result t'.result
  calls : List.Forall₂ (Call.Alike ρ) t.calls t'.calls
  state : t.state.Alike ρ t'.state

/-! ## The operations of the engine -/

namespace Engine

variable (ρ : Renaming) (limits : Thresholds)

theorem alike_check (d : Dimension) (value : String) :
    (check limits d value).Alike ρ (check limits d (ρ.value d value)) := by
  refine .increment d value fun answer => ?_
  cases answer with
  | error e => exact .done _
  | ok count =>
    dsimp only
    split
    · exact .done _
    · exact .note _ (.done _)

theorem alike_decideByRates (dimensions : List (Dimension × String)) :
    (decideByRates limits dimensions).Alike ρ
      (decideByRates limits (dimensions.map fun (d, value) => (d, ρ.value d value))) := by
  induction dimensions with
  | nil => exact .done _
  | cons dimension rest ih =>
    obtain ⟨d, value⟩ := dimension
    refine (alike_check ρ limits d value).bind fun checked => ?_
    cases checked with
    | error e => exact .done _
    | ok result =>
      dsimp only
      split
      · exact ih
      · exact .done _

theorem alike_covers (list : AccessList) (address : Address) :
    (covers list address).Alike ρ (covers list address) :=
  .of_asks (asks_covers trivial address)

theorem alike_decide (attempt : Attempt) (address : Address) :
    (decide limits attempt address).Alike ρ (decide limits (attempt.rename ρ) address) := by
  refine (alike_covers ρ .deny address).bind fun denied => ?_
  match denied with
  | .error e => exact .done _
  | .ok true => exact .done _
  | .ok false =>
    refine (alike_covers ρ .allow address).bind fun allowed => ?_
    match allowed with
    | .error e => exact .done _
    | .ok true => exact .done _
    | .ok false => exact alike_decideByRates ρ limits attempt.dimensions

/-- The report of an evaluation tells the address, and neither login nor password. -/
theorem alike_evaluate (attempt : Attempt) :
    (evaluate limits attempt).Alike ρ (evaluate limits (attempt.rename ρ)) := by
  unfold evaluate
  rw [attempt.validate_rename ρ]
  cases attempt.validate with
  | error e => exact .done _
  | ok address =>
    refine (alike_decide ρ limits attempt address).bind fun result => ?_
    cases result with
    | error e => exact .note _ (.done _)
    | ok d => exact .note _ (.announce _ (.done _))

theorem alike_resetKey (d : Dimension) (value : String) :
    (resetKey d value).Alike ρ (resetKey d (ρ.value d value)) := by
  refine .set d value 0 fun answer => ?_
  cases answer with
  | error e => exact .note _ (.done _)
  | ok _ => exact .note _ (.announce _ (.done _))

theorem alike_resetLogin (login : String) :
    (resetLogin login).Alike ρ (resetLogin (ρ.login login)) := by
  unfold resetLogin
  rw [ρ.isEmpty_login]
  split
  · exact .done _
  · exact alike_resetKey ρ .login login

theorem alike_resetAddress (address : String) :
    (resetAddress address).Alike ρ (resetAddress address) := by
  unfold resetAddress
  cases Address.parse address with
  | error e => exact .done _
  | ok _ => exact alike_resetKey ρ .address address

theorem alike_flush : flush.Alike ρ flush := .of_asks (asks_flush trivial)

end Engine

theorem Control.alike_perform (ρ : Renaming) (limits : Thresholds) (command : Command) :
    (perform limits command).Alike ρ (perform limits (command.rename ρ)) := by
  cases command with
  | check attempt => exact (Engine.alike_evaluate ρ limits attempt).map _
  | add list ip mask => exact .map _ (.of_asks (Engine.asks_add (fun _ => trivial) ip mask))
  | remove list ip mask => exact .map _ (.of_asks (Engine.asks_remove (fun _ => trivial) ip mask))
  | isListed list ip mask => exact .map _ (.of_asks (Engine.asks_listed (fun _ => trivial) ip mask))
  | listAll list => exact .map _ (.of_asks (Engine.asks_listAll trivial))
  | resetLogin login => exact (Engine.alike_resetLogin ρ login).map _
  | resetAddress address => exact (Engine.alike_resetAddress ρ address).map _
  | health => exact .done _

theorem Session.alike_flushes (ρ : Renaming) (n : Nat) : (flushes n).Alike ρ (flushes n) := by
  induction n with
  | zero => exact .done _
  | succ n ih => exact (Engine.alike_flush ρ).bind fun _ => ih

/-- The handler may reply what it likes; otherwise nothing of a request shows at the gate. -/
theorem Gate.passage_rename (ρ : Renaming) (attempt : Attempt) (handler : Handler)
    (result : Except Failure Decision) :
    let p := passage attempt handler result
    let p' := passage (attempt.rename ρ) handler result
    p'.handled = p.handled ∧
      ∀ n, Answer.Alike ρ (.gate attempt handler) (.passage p.reply n) (.passage p'.reply n) := by
  match result with
  | .error e => exact ⟨rfl, fun _ => .same _⟩
  | .ok ⟨false, reason⟩ => exact ⟨rfl, fun _ => .same _⟩
  | .ok ⟨true, reason⟩ => exact ⟨rfl, fun n => .replied attempt handler n⟩

/-! ## One operation -/

namespace Session.Alike

variable {ρ : Renaming} {s s' : Session} {op : Op} {α : Type}

/-- An answer that is read off what is the same on both sides. -/
theorem answered (h : s.Alike ρ s') (answer : Answer) :
    StepsAlike ρ op (s.answered answer) (s'.answered answer) :=
  ⟨rfl, rfl, .same answer, .nil, h⟩

/-- A conversation that goes the same way on both sides. -/
theorem converse (h : s.Alike ρ s') {p p' : Procedure α} (hp : p.Alike ρ p')
    (answer : α → Answer) : StepsAlike ρ op (s.converse p answer) (s'.converse p' answer) := by
  have t := hp.run h.site
  have hresult : (s'.converse p' answer).result = (s.converse p answer).result :=
    congrArg answer t.result
  exact ⟨t.logs, t.events, hresult ▸ .same _, t.calls,
    ⟨t.state, h.limits, h.books, h.schedule, h.handled⟩⟩

/-- A conversation that asks for no counter. -/
theorem converse_keyless (h : s.Alike ρ s') {p : Procedure α} (hp : p.Asks Request.Keyless)
    (answer : α → Answer) : StepsAlike ρ op (s.converse p answer) (s'.converse p answer) :=
  h.converse (.of_asks hp) answer

theorem withLists (h : s.Alike ρ s') (lists : ListStore) :
    (s.withLists lists).Alike ρ (s'.withLists lists) :=
  ⟨⟨h.site.sound, h.site.sound', rfl, h.site.sink, h.site.counters⟩, h.limits, h.books, h.schedule,
    h.handled⟩

theorem withSink (h : s.Alike ρ s') (sink : Sink) : (s.withSink sink).Alike ρ (s'.withSink sink) :=
  ⟨⟨h.site.sound, h.site.sound', h.site.lists, rfl, h.site.counters⟩, h.limits, h.books, h.schedule,
    h.handled⟩

/-- A change of the database that is the same on both sides. -/
theorem withDatabase (h : s.Alike ρ s') {change change' : Storage.Database → Session × Answer}
    (hchange : ∀ db, (change db).1.Alike ρ (change' db).1 ∧ (change' db).2 = (change db).2) :
    StepsAlike ρ op (s.withDatabase change) (s'.withDatabase change') := by
  unfold Session.withDatabase
  rw [h.site.lists]
  cases s.site.stores.lists with
  | memory lists => exact h.answered .rejected
  | database db =>
    obtain ⟨hstate, hanswer⟩ := hchange db
    simp only [hanswer]
    exact hstate.answered _

theorem reattach (h : s.Alike ρ s') : StepsAlike ρ op s.reattach s'.reattach := by
  unfold Session.reattach
  rw [h.site.lists]
  cases s.site.stores.lists with
  | memory lists => exact h.answered .rejected
  | database db =>
    dsimp only
    cases db.reattach with
    | ok db => exact (h.withLists (.database db)).answered .done
    | error e => exact ⟨rfl, rfl, .same _, .nil, h⟩

theorem start (h : s.Alike ρ s') (handle : String) (millis : Nat) :
    StepsAlike ρ op (s.start handle millis) (s'.start handle millis) := by
  unfold Session.start
  rw [h.schedule]
  cases Schedule.start? (some s.schedule) handle millis with
  | error e => exact h.answered _
  | ok schedule => exact ⟨rfl, rfl, .same _, .nil, ⟨h.site, h.limits, h.books, rfl, h.handled⟩⟩

theorem stop (h : s.Alike ρ s') (handle : String) :
    StepsAlike ρ op (s.stop handle) (s'.stop handle) := by
  unfold Session.stop
  rw [h.schedule]
  exact ⟨rfl, rfl, .same _, .nil, ⟨h.site, h.limits, h.books, rfl, h.handled⟩⟩

theorem advance (h : s.Alike ρ s') (millis : Nat) :
    StepsAlike ρ op (s.advance millis) (s'.advance millis) := by
  unfold Session.advance
  rw [h.schedule]
  have hlater : Session.Alike ρ { s with schedule := s.schedule.advance millis }
      { s' with schedule := s.schedule.advance millis } :=
    ⟨h.site, h.limits, h.books, rfl, h.handled⟩
  exact hlater.converse (alike_flushes ρ _) _

theorem gate (h : s.Alike ρ s') (attempt : Attempt) (handler : Handler) :
    StepsAlike ρ (.gate attempt handler) (s.step (.gate attempt handler))
      (s'.step (.gate (attempt.rename ρ) handler)) := by
  by_cases hready : handler.isReady = true
  · have t := (Engine.alike_evaluate ρ s.limits attempt).run h.site
    rw [s.step_gate hready, s'.step_gate hready, h.limits]
    obtain ⟨hhandled, hreply⟩ := Gate.passage_rename ρ attempt handler
      ((Engine.evaluate s.limits attempt).run Site.host s.site).result
    simp only [t.result, h.handled, hhandled]
    exact ⟨t.logs, t.events, hreply _, t.calls, ⟨t.state, rfl, h.books, h.schedule, rfl⟩⟩
  · obtain ⟨text, htext⟩ := Handler.exists_of_not_isReady hready
    rw [s.step_gate_of_unready htext, s'.step_gate_of_unready htext, h.handled]
    exact h.answered _

/-- The books hold the name of a command and its outcome. -/
theorem execute (h : s.Alike ρ s') (origin : Origin) (command : Command) :
    StepsAlike ρ op (s.execute origin command) (s'.execute origin (command.rename ρ)) := by
  have t := (Control.alike_perform ρ s.limits command).run h.site
  simp only [Session.execute, Control.run_carryOut, h.limits, h.books, command.label_rename ρ,
    t.result, t.logs]
  exact ⟨rfl, t.events, .same _, t.calls, ⟨t.state, rfl, rfl, h.schedule, h.handled⟩⟩

/-- One operation, and the same one renamed. -/
theorem step (h : s.Alike ρ s') (hop : op.Typed) :
    StepsAlike ρ op (s.step op) (s'.step (op.rename ρ)) := by
  cases op with
  | setCounter | counters | line | json | fail => exact hop.elim
  | evaluate attempt =>
    simp only [Session.step, Op.rename, h.limits]
    exact h.converse (Engine.alike_evaluate ρ s.limits attempt) _
  | check dimension value =>
    simp only [Session.step, Op.rename, h.limits]
    exact h.converse (Engine.alike_check ρ s.limits dimension value) _
  | resetLogin login => exact h.converse (Engine.alike_resetLogin ρ login) _
  | resetAddress address => exact h.converse (Engine.alike_resetAddress ρ address) _
  | inList list address =>
    exact h.converse_keyless (asks_withInput (Engine.asks_covers trivial)) _
  | add list ip mask => exact h.converse_keyless (Engine.asks_add (fun _ => trivial) ip mask) _
  | remove list ip mask =>
    exact h.converse_keyless (Engine.asks_remove (fun _ => trivial) ip mask) _
  | listed list ip mask =>
    exact h.converse_keyless (Engine.asks_listed (fun _ => trivial) ip mask) _
  | listAll list => exact h.converse_keyless (Engine.asks_listAll trivial) _
  | flush => exact h.converse_keyless (asks_map _ (Engine.asks_flush trivial)) _
  | gate attempt handler => exact h.gate attempt handler
  | execute ticket command => exact h.execute (.ticket ticket) command
  | start handle millis => exact h.start handle millis
  | stop handle => exact h.stop handle
  | advance millis => exact h.advance millis
  | reattach => exact h.reattach
  | limits =>
    simp only [Session.step, Op.rename, h.limits]
    exact h.answered _
  | describe =>
    simp only [Session.step, Op.rename, h.limits]
    exact h.answered _
  | finished handle =>
    simp only [Session.step, Op.rename, h.schedule]
    exact h.answered _
  | history =>
    simp only [Session.step, Op.rename, h.books]
    exact h.answered _
  | audit =>
    simp only [Session.step, Op.rename, h.books]
    exact h.answered _
  | clearHistory =>
    simp only [Session.step, Op.rename, h.books]
    exact ⟨rfl, rfl, .same _, .nil, ⟨h.site, h.limits, rfl, h.schedule, h.handled⟩⟩
  | events =>
    simp only [Session.step, Op.rename, h.site.sink]
    cases s.site.sink <;> exact h.answered _
  | clearEvents =>
    simp only [Session.step, Op.rename, h.site.sink]
    cases s.site.sink with
    | buffer b => exact (h.withSink (.buffer b.clear)).answered _
    | _ => exact h.answered _
  | heal =>
    exact ⟨rfl, rfl, .same _, .nil, ⟨⟨rfl, rfl, h.site.lists, h.site.sink, h.site.counters⟩,
      h.limits, h.books, h.schedule, h.handled⟩⟩
  | insertRow list id ip mask =>
    refine h.withDatabase fun db => ?_
    cases db.insertRaw? list id ip mask with
    | none => exact ⟨h, rfl⟩
    | some db => exact ⟨h.withLists (.database db), rfl⟩
  | dropTable | closeDatabase =>
    simp only [Session.step, Op.rename]
    exact h.withDatabase fun db => ⟨h.withLists _, rfl⟩

/-- A run of operations, and the same run renamed. -/
theorem after (h : s.Alike ρ s') {ops : List Op} (hops : ∀ op ∈ ops, op.Typed) :
    (s.after ops).Alike ρ (s'.after (ops.map (·.rename ρ))) := by
  induction ops generalizing s s' with
  | nil => exact h
  | cons op ops ih =>
    obtain ⟨hop, hops⟩ := List.forall_mem_cons.mp hops
    exact ih (h.step hop).state hops

end Session.Alike

/-! ## The law -/

/-- What two runs show that differ in their credentials alone. -/
structure SecrecyLaw (ρ : Renaming) (start : Session) (ops : List Op) : Prop where
  /-- Step by step, the runs cannot be told apart by what is written down. -/
  steps : ∀ before op after, ops = before ++ op :: after →
    StepsAlike ρ op ((start.after before).step op)
      ((start.after (before.map (·.rename ρ))).step (op.rename ρ))
  /-- No password shows in the description of a command. -/
  described : ∀ (attempt : Attempt) (password : String),
    (Command.check { attempt with password }).describe = (Command.check attempt).describe

/-- Logins and passwords do not show in logs, events, history or audit trail. -/
theorem secrecy_law (ρ : Renaming) (limits : Thresholds) (lists : ListStore) (sink : Sink)
    (audit : AuditTrail) (historyCapacity : Nat) (ops : List Op) (hops : ∀ op ∈ ops, op.Typed) :
    SecrecyLaw ρ (Session.create limits lists sink audit historyCapacity) ops := by
  have hstart : Session.Alike ρ (Session.create limits lists sink audit historyCapacity)
      (Session.create limits lists sink audit historyCapacity) :=
    ⟨⟨rfl, rfl, rfl, rfl, .empty ρ⟩, rfl, rfl, rfl, rfl⟩
  refine ⟨fun before op after h => ?_, fun _ _ => rfl⟩
  subst h
  obtain ⟨hbefore, hop⟩ := List.forall_mem_append.mp hops
  exact (hstart.after hbefore).step (hop op List.mem_cons_self)

/-- Two logins trade places, and two passwords. -/
def Renaming.exchange (login login' password password' : String) (hlogin : "" ≠ login ∧ "" ≠ login')
    (hpassword : "" ≠ password ∧ "" ≠ password') : Renaming where
  login := Equiv.swap login login'
  password := Equiv.swap password password'
  login_injective _ _ h := (Equiv.swap login login').injective h
  password_injective _ _ h := (Equiv.swap password password').injective h
  login_empty := Equiv.swap_apply_of_ne_of_ne hlogin.1 hlogin.2
  password_empty := Equiv.swap_apply_of_ne_of_ne hpassword.1 hpassword.2

/-- Two people trade logins while one of them is over the limit and reset. -/
theorem secrecy_law_exchanged :
    let ρ := Renaming.exchange "ann" "bob" "secret" "hunter2" (by decide) (by decide)
    let ops : List Op := [.evaluate ⟨"ann", "secret", "10.0.0.1"⟩,
      .gate ⟨"ann", "hunter2", "10.0.0.2"⟩ .welcoming, .resetLogin "ann",
      .execute ⟨"c-1", some "ops", none⟩ (.check ⟨"bob", "secret", "10.0.0.1"⟩),
      .start "minutely" 60000, .advance 60000, .history, .audit]
    (∀ op ∈ ops, op.Typed) ∧ SecrecyLaw ρ
      (Session.create ⟨1, 5, 5⟩ (.memory .empty) .log (.memory []) 3) ops := by
  intro ρ ops
  have hops : ∀ op ∈ ops, op.Typed := by simp [ops, Op.Typed]
  exact ⟨hops, secrecy_law ρ _ _ _ _ _ ops hops⟩

end LoginAdmission
