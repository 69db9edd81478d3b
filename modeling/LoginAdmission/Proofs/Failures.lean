/-
  A failure changes nothing.

  An errand of an operator fails on invalid input, before anything is asked, or because the stores
  answer its one request with an error. A store that answers with an error is left as it was, so a
  session is then as if the errand had never been tried, and the same errand done later, for
  instance when a fault was taken away, has the result that it would have had. The same holds of
  the flushes that timers make.

  Main statement: `failure_law`, for every session, so for lists of either kind in any state and for
  any faults. It rests on `Stores.answer_of_error`, the one request of an errand
  (`Session.step_asked`) and the flushes of an advance (`Session.calls_flushes`).
-/
import LoginAdmission.Proofs.Counting.FreshStart
import LoginAdmission.Proofs.Events.Announced
import LoginAdmission.Proofs.Lists.Memory

namespace LoginAdmission

open Procedure

/-- How the failure of an operation tells the error of a store: a conflict and a missing pair by the
same list and subnet, every other error as it is, as one of storage. -/
inductive StoreError.ReportedAs : StoreError → Failure → Prop
  | conflict (list : AccessList) (subnet : Subnet) :
    ReportedAs (.conflict list subnet) (.conflict list subnet)
  | notFound (list : AccessList) (subnet : Subnet) :
    ReportedAs (.notFound list subnet) (.notFound list subnet)
  | storage {error : StoreError}
    (h : ∀ list subnet, error ≠ .conflict list subnet ∧ error ≠ .notFound list subnet) :
    ReportedAs error (.storage error)

namespace Session

/-- The operation is an errand and fails, or is a command that carries out an errand that fails. -/
def Fails (s : Session) (op : Op) (failure : Failure) : Prop :=
  op.errand?.isSome ∧ (s.step op.plain).result = .failed failure

/-- The other session is as this one, up to what is only recorded: no run of operations that asks
for no records can tell. The lists are there with the numbers of their entries and the largest
number so far, and the timers with the times when they are due. -/
structure Spared (s s' : Session) : Prop where
  stores : s'.site.stores = s.site.stores
  limits : s'.limits = s.limits
  timers : s'.schedule = s.schedule
  later : s.Indistinguishable s'

/-- The timers that come due in a span all fail to flush. -/
structure FailsToFlush (s : Session) (millis : Nat) (error : StoreError) : Prop where
  calls : (s.step (.advance millis)).calls =
    List.replicate (s.schedule.due millis).length ⟨.flush, .error error⟩
  events : (s.step (.advance millis)).events =
    List.replicate (s.schedule.due millis).length .flushFailed
  /-- The session is left as if the time had passed without them. -/
  spared : ({ s with schedule := s.schedule.advance millis } : Session).Spared
    (s.step (.advance millis)).state
  /-- The timers go on: they run, and come due when they would have. -/
  running : ∀ handle,
    (s.step (.advance millis)).state.schedule.isRunning handle = s.schedule.isRunning handle
  due : ∀ more, s.schedule.due (millis + more) =
    s.schedule.due millis ++ (s.step (.advance millis)).state.schedule.due more

end Session

/-- What failures do to a session. -/
structure FailureLaw (s : Session) : Prop where
  /-- An errand with invalid input fails, and asks for nothing. -/
  invalid : ∀ op e, op.errand? = some (.error e) →
    s.Fails op (.invalid e) ∧ (s.step op).calls = []
  /-- One with valid input asks the stores once. It fails if their answer is an error, which it
  reports, and for no other reason. -/
  valid : ∀ op request, op.errand? = some (.ok request) →
    ∃ answer, (s.step op).calls = [⟨request, answer⟩] ∧
      ∀ failure, s.Fails op failure ↔ ∃ error, answer = .error error ∧ error.ReportedAs failure
  /-- An errand that fails leaves the session as it was. -/
  spared : ∀ op failure, s.Fails op failure → s.Spared (s.step op).state
  /-- Done again, whatever was done in between, it has the result that it would have had. -/
  again : ∀ op failure, s.Fails op failure → ∀ ops, (∀ op' ∈ ops, ¬ op'.ConcernsRecords) →
    (((s.step op).state.after ops).step op).result = ((s.after ops).step op).result
  /-- Nothing is announced of it but that a flush failed. -/
  silent : ∀ op failure, s.Fails op failure → op ≠ .flush → (s.step op).events = []
  alarm : ∀ failure, s.Fails .flush failure → (s.step .flush).events = [.flushFailed]
  /-- A command that carries it out has a fault for its outcome, unless the audit trail turns the
  command away. -/
  command : ∀ op failure, s.Fails op failure → op.command?.isSome →
    s.books.audit ≠ .rejecting → (s.step op).result = .command (.ok (.failed (.ofFailure failure)))
  /-- When one flush of a timer fails while time passes, all of them do, and leave all as it was. -/
  timers : ∀ millis error, ⟨.flush, .error error⟩ ∈ (s.step (.advance millis)).calls →
    s.FailsToFlush millis error

/-! ## Stores that fail -/

namespace ListStore

theorem ofDatabase_of_error {α : Type} {db : Storage.Database} {e : StoreError}
    {answered : Except Storage.DatabaseError (α × Storage.Database)}
    (h : (ofDatabase db answered).1 = .error e) : (ofDatabase db answered).2.1 = .database db := by
  cases answered with
  | ok reply => cases h
  | error cause => cases cause <;> rfl

/-- Lists that answer with an error are left as they were, wherever they are kept. -/
theorem ask_of_error {store : ListStore} {r : ListRequest} {e : StoreError}
    (h : (store.ask r).1 = .error e) : (store.ask r).2 = store := by
  cases store with
  | memory m => rw [Storage.Memory.ask_state, Storage.Memory.after_of_error h]
  | database db => cases r <;> exact ofDatabase_of_error h

end ListStore

/-- Stores that answer with an error are left as they were. -/
theorem Stores.answer_of_error {s : Stores} {request : Request} {e : StoreError}
    (h : (s.answer request).1 = .error e) : (s.answer request).2.1 = s := by
  have hlists : ∀ r : ListRequest, (s.lists.ask r).1 = .error e →
      { s with lists := (s.lists.ask r).2 } = s := fun r hr => by
    rw [ListStore.ask_of_error hr]
  unfold answer at h ⊢
  cases hfault : s.faults.find? (·.hits request) with
  | some fault => rfl
  | none =>
    rw [hfault] at h
    cases request with
    | enumerate list => exact hlists (.enumerate list) h
    | contains list subnet => exact hlists (.contains list subnet) h
    | add list subnet => exact hlists (.add list subnet) h
    | remove list subnet => exact hlists (.remove list subnet) h
    | increment | set | flush => cases h

theorem StoreError.reportedAs_iff (e : StoreError) (failure : Failure) :
    e.ReportedAs failure ↔ failure = .ofStore e := by
  constructor
  · intro h
    cases h with
    | conflict | notFound => rfl
    | storage h =>
      cases e with
      | conflict list subnet => exact absurd rfl (h list subnet).1
      | notFound list subnet => exact absurd rfl (h list subnet).2
      | unavailable | corrupt | contention => rfl
  · rintro rfl
    cases e with
    | conflict list subnet => exact .conflict list subnet
    | notFound list subnet => exact .notFound list subnet
    | unavailable | corrupt | contention => exact .storage fun _ _ => ⟨nofun, nofun⟩

/-! ## Errands -/

namespace Op

variable {op : Op}

theorem reschedule_of_request (h : op.request?.isSome) : op.reschedule = id := by
  cases op <;> simp only [request?, Option.isSome_none, Bool.false_eq_true] at h <;> rfl

theorem plain_ne_flush (h : op ≠ .flush) : op.plain ≠ .flush := by
  unfold plain
  cases op.command? with
  | none => exact h
  | some command => cases command <;> nofun

theorem ne_gate_of_errand (h : op.errand?.isSome) :
    ∀ attempt handler, op ≠ .gate attempt handler := by
  rintro attempt handler rfl
  cases h

theorem not_concernsRecords (h : op.errand?.isSome) : ¬ op.ConcernsRecords := by
  intro hrecords
  cases op <;> first | exact hrecords.elim | cases h

/-- Of an errand that fails nothing is to be told, unless it is a flush. -/
theorem tells_of_failed {failure : Failure} {t : Session.Step} (h : op.request?.isSome)
    (hflush : op ≠ .flush) (hfailed : t.result = .failed failure) : op.tells t = [] := by
  cases op <;> simp only [request?, Option.isSome_none, Bool.false_eq_true] at h
  case flush => exact absurd rfl hflush
  all_goals simp only [tells, hfailed]

end Op

/-- An errand answers with a failure just when the stores answer with an error. -/
theorem Call.report_eq_failed_iff (request : Request) (answer : Except StoreError request.Reply)
    (failure : Failure) :
    Call.report ⟨request, answer⟩ = .failed failure ↔
      ∃ e, answer = .error e ∧ e.ReportedAs failure := by
  cases answer with
  | error e =>
    constructor
    · intro h
      cases h
      exact ⟨e, rfl, (e.reportedAs_iff _).mpr rfl⟩
    · rintro ⟨e', he, hreported⟩
      cases he
      rw [(e.reportedAs_iff _).mp hreported]
      rfl
  | ok reply =>
    refine iff_of_false ?_ fun ⟨e, he, _⟩ => nomatch he
    cases request <;> nofun

namespace Session

variable {s s' : Session} {op : Op} {failure : Failure}

theorem spared_of_stores (hstores : s'.site.stores = s.site.stores) (hlimits : s'.limits = s.limits)
    (htimers : s'.schedule = s.schedule)
    (hrefuses : s'.books.audit.refuses = s.books.audit.refuses) : s.Spared s' where
  stores := hstores
  limits := hlimits
  timers := htimers
  later := by
    refine Equivalent.indistinguishable ⟨⟨?_, hlimits, ?_, ?_, hrefuses⟩, fun key => ?_⟩
    · rw [hstores]
    · rw [htimers]
    · rw [hstores]
    · rw [hstores]

/-- An errand fails on invalid input, or with the error that the stores answer. -/
theorem Fails.refused_or_answered (h : s.Fails op failure) :
    (∃ e, s.step op.plain = s.answered (.failed (.invalid e))) ∨
      ∃ request e, (s.site.stores.answer request).1 = .error e ∧
        (s.step op.plain).state.site.stores = (s.site.stores.answer request).2.1 := by
  obtain ⟨hsome, hfailed⟩ := h
  obtain ⟨input, hinput⟩ := Option.isSome_iff_exists.mp hsome
  cases input with
  | error e => exact .inl ⟨e, s.step_refused hinput⟩
  | ok request =>
    have hasked := s.step_asked hinput
    rw [hasked.result, Call.report_eq_failed_iff] at hfailed
    obtain ⟨e, he, -⟩ := hfailed
    exact .inr ⟨request, e, he, hasked.stores⟩

theorem stores_of_fails (h : s.Fails op failure) :
    (s.step op).state.site.stores = s.site.stores := by
  rw [← (s.step_plain op).2.2.site]
  rcases h.refused_or_answered with ⟨e, hstep⟩ | ⟨request, e, he, hstores⟩
  · rw [hstep]
    rfl
  · rw [hstores, Stores.answer_of_error he]

/-- An errand that fails leaves the session as it was. -/
theorem spared_of_fails (h : s.Fails op failure) : s.Spared (s.step op).state := by
  obtain ⟨hlimits, hschedule, -⟩ := s.step_frame op
  have hreschedule : op.reschedule = id :=
    (s.talk_plain op).2.2.symm.trans (Op.reschedule_of_request h.1)
  rw [hreschedule] at hschedule
  exact spared_of_stores (stores_of_fails h) hlimits hschedule (s.refuses_step op)

/-- No totals are in the answer to an errand. -/
theorem withoutTotals_result (s : Session) (h : op.errand?.isSome) :
    (s.step op).result.withoutTotals = (s.step op).result := by
  cases hcommand : op.command? with
  | some command =>
    obtain ⟨outcome, hcarried⟩ := s.carried_step hcommand
    by_cases haudit : s.books.audit = .rejecting
    · rw [hcarried.rejected haudit]
      rfl
    · rw [hcarried.accepted haudit]
      rfl
  | none =>
    have hplain : op.plain = op := by rw [Op.plain, hcommand]
    obtain ⟨input, hinput⟩ := Option.isSome_iff_exists.mp h
    rw [Op.errand?, hplain] at hinput
    cases input with
    | error e =>
      rw [s.step_refused hinput]
      rfl
    | ok request =>
      rw [(s.step_asked hinput).result]
      cases (Site.host.answer request s.site).1 with
      | error e => rfl
      | ok reply => cases request <;> rfl

theorem result_again (h : s.Fails op failure) {ops : List Op}
    (hops : ∀ op' ∈ ops, ¬ op'.ConcernsRecords) :
    (((s.step op).state.after ops).step op).result = ((s.after ops).step op).result := by
  have hall : ∀ op' ∈ op :: ops, ¬ op'.ConcernsRecords :=
    List.forall_mem_cons.mpr ⟨Op.not_concernsRecords h.1, hops⟩
  have hagree := ((spared_of_fails h).later.steps ops op hall).result
  rwa [withoutTotals_result _ h.1, withoutTotals_result _ h.1] at hagree

/-! ### What is told of it -/

theorem events_of_fails (h : s.Fails op failure) :
    (s.step op).events = op.plain.tells (s.step op.plain) := by
  rw [s.events_step, Op.behind_of_not_gate (Op.ne_gate_of_errand h.1)]

/-- A command that carries out an errand does it as the operation. -/
theorem direct_of_errand (s : Session) {command : Command} (h : op.command? = some command)
    (herrand : op.errand?.isSome) : s.direct command = s.step op.plain := by
  have hplain : op.plain = command.operation.getD .limits := by rw [Op.plain, h]
  rw [Op.errand?, hplain] at herrand
  rw [hplain, direct]
  cases hoperation : command.operation with
  | some op' => rfl
  | none =>
    rw [hoperation] at herrand
    cases herrand

theorem command_of_fails (h : s.Fails op failure) (hcommand : op.command?.isSome)
    (haudit : s.books.audit ≠ .rejecting) :
    (s.step op).result = .command (.ok (.failed (.ofFailure failure))) := by
  obtain ⟨command, hcommand⟩ := Option.isSome_iff_exists.mp hcommand
  obtain ⟨outcome, hcarried⟩ := s.carried_step hcommand
  have hcarries := hcarried.carries
  rw [s.direct_of_errand hcommand h.1, h.2] at hcarries
  rw [hcarried.accepted haudit, hcarries]

end Session

/-! ## Flushes of the timers -/

namespace Session

theorem stores_flushes {n : Nat} {site : Site} {e : StoreError}
    (h : (Site.host.answer .flush site).1 = .error e) :
    ((flushes n).run Site.host site).state.stores = site.stores := by
  induction n generalizing site with
  | zero => rfl
  | succ n ih =>
    have hstores : (Engine.flush.run Site.host site).state.stores = site.stores :=
      (Engine.run_flush site).2.trans (Stores.answer_of_error h)
    rw [flushes, run_bind]
    refine (ih ?_).trans hstores
    rw [← h]
    exact Site.answer_flush_congr (by rw [hstores])

theorem failsToFlush {s : Session} {millis : Nat} {error : StoreError}
    (h : ⟨.flush, .error error⟩ ∈ (s.step (.advance millis)).calls) :
    s.FailsToFlush millis error := by
  have hcalls : (s.step (.advance millis)).calls =
      List.replicate (s.schedule.due millis).length ⟨.flush, (Site.host.answer .flush s.site).1⟩ :=
    calls_flushes _ s.site
  rw [hcalls] at h
  have hanswer : (Site.host.answer .flush s.site).1 = .error error := by
    cases hanswer : (Site.host.answer .flush s.site).1 <;> rw [hanswer] at h <;>
      cases List.eq_of_mem_replicate h
    rfl
  rw [hanswer] at hcalls
  constructor
  case calls => exact hcalls
  case events =>
    rw [s.events_step (.advance millis)]
    refine (congrArg (List.filterMap Call.flushEvent?) hcalls).trans ?_
    exact List.filterMap_replicate_of_some rfl
  case spared =>
    refine spared_of_stores (stores_flushes hanswer) rfl rfl ?_
    exact s.refuses_step (.advance millis)
  case running => exact fun handle => s.schedule.isRunning_advance millis handle
  case due => exact fun more => s.schedule.due_add millis more

end Session

/-- Whatever fails, nothing is changed by it, and it may be tried again. -/
theorem failure_law (s : Session) : FailureLaw s := by
  constructor
  case invalid =>
    intro op e h
    have hstep := s.step_refused h
    refine ⟨⟨by rw [h]; rfl, by rw [hstep]; rfl⟩, ?_⟩
    rw [← (s.step_plain op).1, hstep]
    rfl
  case valid =>
    intro op request h
    have hasked := s.step_asked h
    refine ⟨_, (s.step_plain op).1.symm.trans hasked.calls, fun failure => ?_⟩
    rw [← Call.report_eq_failed_iff, ← hasked.result, Session.Fails, h]
    exact and_iff_right rfl
  case spared => exact fun op failure h => Session.spared_of_fails h
  case again => exact fun op failure h ops hops => Session.result_again h hops
  case silent =>
    intro op failure h hflush
    rw [Session.events_of_fails h]
    exact Op.tells_of_failed h.1 (Op.plain_ne_flush hflush) h.2
  case alarm =>
    intro failure h
    have hresult : (s.step .flush).result = .failed failure := h.2
    refine (Session.events_of_fails h).trans ?_
    change Op.tells .flush (s.step .flush) = _
    simp only [Op.tells, hresult]
  case command => exact fun op failure h => Session.command_of_fails h
  case timers => exact fun millis error h => Session.failsToFlush h

/-- An add that the other list stands against uses up no number. -/
example :
    let s := Session.create .standard (.memory .empty) .discard .absent 1
    let ops : List Op := [.add .deny "10.0.0.0" 8, .add .allow "10.0.0.0" 8]
    ((s.after ops).step (.add .allow "10.0.0.0" 9)).result = .added 1 := by
  cbv

end LoginAdmission
