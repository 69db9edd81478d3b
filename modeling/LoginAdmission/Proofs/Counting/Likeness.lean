/-
  Sessions of one setting, with counters that a run cannot tell apart.

  Two sessions match when they have the same lists, limits, faults and running timers, audit trails
  that both refuse or both do not, and counters in a relation that no request about the keys of
  interest can see through (`Counters.Congruence`). They may differ in what their clocks show, and
  in all that is only recorded: the buffer of events, the history, the audit records and the number
  of requests that were handled.

  Main statements: `Session.Matches.step` (an operation that counts no other keys makes the same
  calls on both, announces the same events and leaves sessions that match), `Session.Matches.result`
  (it answers the same, if it asks for no records and reads no other counters) and
  `Session.matches_writes` (an operation leaves a session that matches the one before it, where the
  relation does not look at the counters that it writes).
-/
import LoginAdmission.Proofs.Counting.Evaluation
import LoginAdmission.Proofs.Errands
import LoginAdmission.Proofs.Matching
import LoginAdmission.Proofs.Timers.Countdown

namespace LoginAdmission

open Procedure

/-- Whether a trail turns every entry away. -/
def AuditTrail.refuses : AuditTrail → Bool
  | rejecting => true
  | _ => false

/-- Two sessions with the same lists, limits, faults and running timers, whose audit trails both
refuse or both do not. -/
structure Session.SameSetting (s s' : Session) : Prop where
  lists : s'.site.stores.lists = s.site.stores.lists
  limits : s'.limits = s.limits
  timers : s'.schedule.running = s.schedule.running
  faults : s'.site.stores.faults = s.site.stores.faults
  refuses : s'.books.audit.refuses = s.books.audit.refuses

/-- Two sessions of the same setting with related counters. -/
structure Session.Matches (R : Counters → Counters → Prop) (s s' : Session) : Prop
    extends s.SameSetting s' where
  counters : R s.site.stores.counters s'.site.stores.counters

/-- Whatever the session, the operation counts nothing but keys of interest. -/
def Op.CountsOnly (keys : String → Prop) (op : Op) : Prop :=
  ∀ s : Session, (s.talk op).Asks (Request.About keys)

/-- An operation that asks for what is recorded, or drops it. -/
def Op.ConcernsRecords : Op → Prop
  | .events | .clearEvents | .history | .audit => True
  | _ => False

/-- An answer without the totals of a session: how many counters are tracked, and how many requests
were handled since the session began. -/
def Answer.withoutTotals : Answer → Answer
  | .counters values _ => .counters values 0
  | .passage reply _ => .passage reply 0
  | answer => answer

variable {keys : String → Prop} {R : Counters → Counters → Prop}

/-- Where every key is of interest, every operation counts nothing else. -/
theorem Op.countsOnly_all (op : Op) : op.CountsOnly fun _ => True :=
  fun s => (s.talk op).asks_about_all

/-! ## What an operation does past its conversation -/

/-- Beside the conversation, matching sites are changed alike. -/
theorem Op.touch_matches (hR : Counters.Congruence keys R) {s s' : Site} (h : s.Matches R s')
    (op : Op) : (op.touch s).Matches R (op.touch s') := by
  have hdatabase : ∀ change : Storage.Database → Option Storage.Database,
      (s.withDatabase change).Matches R (s'.withDatabase change) := by
    intro change
    unfold Site.withDatabase
    rw [h.lists]
    cases s.stores.lists with
    | memory lists => exact h
    | database db =>
      dsimp only
      cases change db with
      | none => exact h
      | some db => exact ⟨rfl, h.faults, h.counters⟩
  cases op with
  | setCounter key n => exact ⟨h.lists, h.faults, hR.set h.counters key n⟩
  | clearEvents =>
    simp only [touch]
    split <;> split <;> exact ⟨h.lists, h.faults, h.counters⟩
  | fail fault => exact ⟨h.lists, congrArg (· ++ [fault]) h.faults, h.counters⟩
  | heal => exact ⟨h.lists, rfl, h.counters⟩
  | insertRow | reattach => exact hdatabase _
  | dropTable list => exact hdatabase fun db => some (db.setTable none list)
  | closeDatabase => exact hdatabase fun db => some { db with closed := true }
  | _ => exact h

/-- What an operation does to the timers is told by their countdowns. -/
theorem Op.running_reschedule {t t' : Schedule} (h : t'.running = t.running) (op : Op) :
    (op.reschedule t').running = (op.reschedule t).running := by
  cases op with
  | start handle millis =>
    simp only [reschedule, Schedule.start?]
    split
    · simp only [Except.toOption, Option.getD_some, Schedule.running_start, h]
    · exact h
  | advance millis => simp only [reschedule, Schedule.running_advance, h]
  | stop handle => simp only [reschedule, Schedule.running_stop, h]
  | _ => exact h

/-- A trail takes entries, or turns them away, as it did before. -/
theorem AuditTrail.Offered.refuses {entry : AuditEntry} {trail trail' : AuditTrail}
    {lines : List LogLine} (h : Offered entry trail trail' lines) :
    trail'.refuses = trail.refuses := by
  cases h <;> rfl

/-- Whether a command is reported as failed by the books depends on the trail's refusal alone. -/
theorem Books.enter_result (b : Books) (origin : Origin) (label : String) (outcome : Outcome) :
    (b.enter origin label outcome).1 =
      if b.audit.refuses then .error (.audit ("rejected " ++ label)) else .ok outcome := by
  unfold enter
  cases b.audit <;> rfl

namespace Session

/-- No operation changes whether the trail refuses. -/
theorem refuses_step (s : Session) (op : Op) :
    (s.step op).state.books.audit.refuses = s.books.audit.refuses := by
  by_cases hclear : op = .clearHistory
  · subst hclear
    rfl
  · cases hcommand : op.command? with
    | none => rw [s.books_step hcommand hclear]
    | some command =>
      obtain ⟨outcome, hcarried⟩ := s.carried_step hcommand
      obtain ⟨lines, hoffered, -⟩ := hcarried.audit
      exact hoffered.refuses

end Session

/-! ## Sessions that match -/

namespace Session.Matches

variable {s s' : Session} {α : Type} {op : Op}

theorem site (h : s.Matches R s') : s.site.Matches R s'.site := ⟨h.lists, h.faults, h.counters⟩

/-- An operation holds the same conversation at both. -/
theorem talk (h : s.Matches R s') (op : Op) : s'.talk op = s.talk op :=
  talk_congr h.limits
    (fun millis => by rw [Schedule.length_due, Schedule.length_due, h.timers]) op

/-! ### The answers -/

theorem result_converse (hR : Counters.Congruence keys R) (h : s.Matches R s') {p : Procedure α}
    (hp : (p.map fun _ => ()).Asks (Request.About keys)) (answer : α → Answer) :
    (s'.converse p answer).result = (s.converse p answer).result :=
  congrArg answer (run_matches hR (asks_of_map hp) h.site).result

theorem result_execute (hR : Counters.Congruence keys R) (h : s.Matches R s') {command : Command}
    (hcommand : (s.talkRead (.ok command)).Asks (Request.About keys)) (origin origin' : Origin) :
    (s'.execute origin' command).result = (s.execute origin command).result := by
  have t := run_matches hR (asks_of_map hcommand) h.site
  simp only [execute, Control.run_carryOut, Books.enter_result, h.limits, h.refuses, t.result]

theorem result_executeRead (hR : Counters.Congruence keys R) (h : s.Matches R s')
    {read : Except CommandError Command} (hread : (s.talkRead read).Asks (Request.About keys)) :
    (s'.executeRead read).result = (s.executeRead read).result := by
  cases read with
  | ok command =>
    have harrived : Matches R { s with books := { s.books with arrivals := s.books.arrivals + 1 } }
        { s' with books := { s'.books with arrivals := s'.books.arrivals + 1 } } :=
      ⟨⟨h.lists, h.limits, h.timers, h.faults, h.refuses⟩, h.counters⟩
    exact harrived.result_execute hR hread _ _
  | error e => rfl

theorem result_withDatabase (h : s.Matches R s')
    {change change' : Storage.Database → Session × Answer}
    (hchange : ∀ db, (change' db).2 = (change db).2) :
    (s'.withDatabase change').result = (s.withDatabase change).result := by
  unfold withDatabase
  rw [h.lists]
  cases s.site.stores.lists with
  | memory lists => rfl
  | database db => exact hchange db

/-- An operation whose answer tells no total answers the same. -/
theorem result_of_no_total (hR : Counters.Congruence keys R) (h : s.Matches R s')
    (hop : op.CountsOnly keys) (hcounters : ∀ names, op ≠ .counters names)
    (hgate : ∀ attempt handler, op ≠ .gate attempt handler) (hrecords : ¬ op.ConcernsRecords) :
    (s'.step op).result = (s.step op).result := by
  have hasks := hop s
  cases op with
  | counters names => exact absurd rfl (hcounters names)
  | gate attempt handler => exact absurd rfl (hgate attempt handler)
  | events | clearEvents | history | audit => exact absurd trivial hrecords
  | evaluate | check =>
    simp only [Session.step, h.limits]
    exact h.result_converse hR hasks _
  | inList | add | remove | listed | listAll | resetLogin | resetAddress | flush =>
    exact h.result_converse hR hasks _
  | limits | describe => simp only [Session.step, answered, h.limits]
  | execute ticket command => exact h.result_execute hR hasks _ _
  | line | json => exact h.result_executeRead hR hasks
  | start handle millis =>
    by_cases hpos : 0 < millis
    · simp only [Session.step, start, Schedule.start?, dif_pos hpos]
    · simp only [Session.step, start, Schedule.start?, dif_neg hpos, answered]
  | finished handle =>
    simp only [Session.step, answered, Schedule.isRunning_eq, h.timers]
  | insertRow list id ip mask =>
    refine h.result_withDatabase fun db => ?_
    cases db.insertRaw? list id ip mask <;> rfl
  | dropTable | closeDatabase => exact h.result_withDatabase fun db => rfl
  | reattach =>
    simp only [Session.step, Session.reattach, h.lists]
    cases s.site.stores.lists with
    | memory lists => rfl
    | database db =>
      dsimp only
      cases db.reattach with
      | ok db => rfl
      | error e => cases e <;> rfl
  | _ => rfl

/-- Counters of interest are listed the same. -/
theorem counters_listed (hR : Counters.Congruence keys R) (h : s.Matches R s') {names : List String}
    (hnames : ∀ key ∈ names, keys key) :
    names.map (fun key => (key, s'.site.stores.counters.value key)) =
      names.map fun key => (key, s.site.stores.counters.value key) :=
  List.map_congr_left fun key hkey => by rw [hR.value h.counters key (hnames key hkey)]

/-- What comes of a request at the gate is the same. -/
theorem passed (hR : Counters.Congruence keys R) (h : s.Matches R s') {attempt : Attempt}
    {handler : Handler} (hop : (Op.gate attempt handler).CountsOnly keys) :
    ((Gate.pass s'.limits attempt handler).run Site.host s'.site).result =
      ((Gate.pass s.limits attempt handler).run Site.host s.site).result := by
  rw [h.limits]
  exact (run_matches hR (asks_of_map (hop s)) h.site).result

/-- The answers differ at most in the totals of the sessions. -/
theorem result (hR : Counters.Congruence keys R) (h : s.Matches R s') (hop : op.CountsOnly keys)
    (hreads : ∀ names, op = .counters names → ∀ key ∈ names, keys key)
    (hrecords : ¬ op.ConcernsRecords) :
    (s'.step op).result.withoutTotals = (s.step op).result.withoutTotals := by
  by_cases hcounters : ∃ names, op = .counters names
  · obtain ⟨names, rfl⟩ := hcounters
    simp only [Session.step, answered, Answer.withoutTotals,
      h.counters_listed hR (hreads names rfl)]
  by_cases hgate : ∃ attempt handler, op = .gate attempt handler
  · obtain ⟨attempt, handler, rfl⟩ := hgate
    simp only [Session.step, gate, Answer.withoutTotals, h.passed hR hop]
  · exact congrArg _ (h.result_of_no_total hR hop (fun names heq => hcounters ⟨names, heq⟩)
      (fun attempt handler heq => hgate ⟨attempt, handler, heq⟩) hrecords)

/-- Where the totals are the same as well, so is the whole answer. -/
theorem result_of_totals (hR : Counters.Congruence keys R) (h : s.Matches R s')
    (hop : op.CountsOnly keys) (hreads : ∀ names, op = .counters names → ∀ key ∈ names, keys key)
    (hrecords : ¬ op.ConcernsRecords)
    (htracked : s'.site.stores.counters.tracked = s.site.stores.counters.tracked)
    (hhandled : s'.handled = s.handled) : (s'.step op).result = (s.step op).result := by
  by_cases hcounters : ∃ names, op = .counters names
  · obtain ⟨names, rfl⟩ := hcounters
    simp only [Session.step, answered, h.counters_listed hR (hreads names rfl), htracked]
  by_cases hgate : ∃ attempt handler, op = .gate attempt handler
  · obtain ⟨attempt, handler, rfl⟩ := hgate
    simp only [Session.step, gate, h.passed hR hop, hhandled]
  · exact h.result_of_no_total hR hop (fun names heq => hcounters ⟨names, heq⟩)
      (fun attempt handler heq => hgate ⟨attempt, handler, heq⟩) hrecords

/-! ### One operation, and a run -/

/-- As many requests are handled at the one gate as at the other. -/
theorem handled (hR : Counters.Congruence keys R) (h : s.Matches R s') (hop : op.CountsOnly keys) :
    (s'.step op).state.handled + s.handled = (s.step op).state.handled + s'.handled := by
  by_cases hgate : ∃ attempt handler, op = .gate attempt handler
  · obtain ⟨attempt, handler, rfl⟩ := hgate
    simp only [Session.step, gate, h.passed hR hop]
    split <;> omega
  · have hframe : ∀ r : Session, (r.step op).state.handled = r.handled := fun r =>
      (r.step_frame op).2.2 fun attempt handler heq => hgate ⟨attempt, handler, heq⟩
    rw [hframe, hframe, Nat.add_comm]

/-- The same calls are made and the same events announced, and the sessions go on matching. -/
theorem step (hR : Counters.Congruence keys R) (h : s.Matches R s') (hop : op.CountsOnly keys) :
    (s'.step op).calls = (s.step op).calls ∧ (s'.step op).events = (s.step op).events ∧
      (s.step op).state.Matches R (s'.step op).state := by
  obtain ⟨hcalls, hevents, hsite⟩ := s.step_site op
  obtain ⟨hcalls', hevents', hsite'⟩ := s'.step_site op
  obtain ⟨hlimits, hschedule, -⟩ := s.step_frame op
  obtain ⟨hlimits', hschedule', -⟩ := s'.step_frame op
  have t := run_matches hR (hop s) h.site
  have hstate := op.touch_matches hR t.state
  rw [h.talk op] at hcalls' hevents' hsite'
  rw [← hsite, ← hsite'] at hstate
  refine ⟨?_, ?_, ⟨hstate.lists, ?_, ?_, hstate.faults, ?_⟩, hstate.counters⟩
  · rw [hcalls, hcalls', t.calls]
  · rw [hevents, hevents', t.events]
  · rw [hlimits, hlimits', h.limits]
  · rw [hschedule, hschedule', op.running_reschedule h.timers]
  · rw [refuses_step, refuses_step, h.refuses]

theorem after (hR : Counters.Congruence keys R) (h : s.Matches R s') {ops : List Op}
    (hops : ∀ op ∈ ops, op.CountsOnly keys) : (s.after ops).Matches R (s'.after ops) := by
  induction ops generalizing s s' with
  | nil => exact h
  | cons op ops ih =>
    obtain ⟨hop, hops⟩ := List.forall_mem_cons.mp hops
    exact ih (h.step hR hop).2.2 hops

end Session.Matches

/-! ## What an operation writes -/

/-- The request writes no counter but in a way that the predicate says, and edits no list. A check
may write any value. -/
def Request.Writes (W : String → UInt64 → Prop) : Request → Prop
  | .increment key => ∀ n, W key n
  | .set key n => W key n
  | .enumerate _ | .contains .. => True
  | .add .. | .remove .. | .flush => False

section Writes

variable {W : String → UInt64 → Prop} {c : Counters}

/-- A request that writes nothing the relation looks at leaves a site that matches. -/
theorem Site.Matches.answer_writes {s s' : Site} (h : s.Matches R s') {request : Request}
    (hrequest : request.Writes W)
    (hset : ∀ c' key n, W key n → R s.stores.counters c' → R s.stores.counters (c'.set key n)) :
    s.Matches R (Site.host.answer request s').2.1 := by
  rcases s'.host_answer_cases request with ⟨fault, -, -, hanswer⟩ | hanswer
  · rw [hanswer]
    exact h
  · rw [hanswer]
    cases request with
    | increment key => exact ⟨h.lists, h.faults, hset _ key _ (hrequest _) h.counters⟩
    | set key n => exact ⟨h.lists, h.faults, hset _ key n hrequest h.counters⟩
    | enumerate list => exact ⟨(ListStore.enumerate_state ..).trans h.lists, h.faults, h.counters⟩
    | contains list subnet =>
      exact ⟨(ListStore.contains_state ..).trans h.lists, h.faults, h.counters⟩
    | add | remove | flush => exact hrequest.elim

theorem Procedure.run_writes {α : Type} {p : Procedure α} (hp : p.Asks (Request.Writes W))
    {s s' : Site}
    (hset : ∀ c' key n, W key n → R s.stores.counters c' → R s.stores.counters (c'.set key n))
    (h : s.Matches R s') : s.Matches R (p.run Site.host s').state := by
  induction p generalizing s' with
  | done a => exact h
  | ask request next ih => exact ih _ (hp.2 _) (h.answer_writes hp.1 hset)
  | note line next ih => exact ih hp h
  | announce event next ih => exact ih hp ⟨h.lists, h.faults, h.counters⟩

/-- An operation that does nothing past such requests leaves a session that matches. -/
theorem Session.matches_writes (s : Session) {op : Op} (hasks : (s.talk op).Asks (Request.Writes W))
    (htouch : op.touch = id) (hreschedule : op.reschedule = id)
    (hself : R s.site.stores.counters s.site.stores.counters)
    (hset : ∀ c' key n, W key n → R s.site.stores.counters c' →
      R s.site.stores.counters (c'.set key n)) : s.Matches R (s.step op).state := by
  obtain ⟨-, -, hsite⟩ := s.step_site op
  obtain ⟨hlimits, hschedule, -⟩ := s.step_frame op
  have hstores := Procedure.run_writes hasks hset ⟨rfl, rfl, hself⟩
  rw [htouch, id] at hsite
  rw [hreschedule, id] at hschedule
  rw [← hsite] at hstores
  exact ⟨⟨hstores.lists, hlimits, congrArg _ hschedule, hstores.faults, s.refuses_step op⟩,
    hstores.counters⟩

end Writes

/-! ## Evaluations -/

theorem Session.talk_attempt (s : Session) {op : Op} {attempt : Attempt}
    (h : op.attempt? = some attempt) :
    s.talk op = (Engine.evaluate s.limits attempt).map fun _ => () := by
  rw [← (s.talk_behind op).1, Op.attempt?_eq_some_iff.mp h]
  rfl

/-- An evaluation counts the dimensions of its attempt. -/
theorem Op.countsOnly_of_attempt {op : Op} {attempt : Attempt} (h : op.attempt? = some attempt)
    (hkeys : ∀ p ∈ attempt.dimensions, keys (p.1.key p.2)) : op.CountsOnly keys := by
  intro s
  rw [s.talk_attempt h]
  exact asks_map _ (Engine.asks_evaluate (fun _ => trivial) hkeys)

/-- The totals in an answer tell nothing of a decision. -/
theorem Answer.reports_withoutTotals (answer : Answer) (decision : Decision) :
    answer.withoutTotals.Reports decision ↔ answer.Reports decision := by
  cases answer with
  | passage reply handled =>
    cases reply with
    | ok text => exact Iff.rfl
    | error e => cases e <;> exact Iff.rfl
  | _ => exact Iff.rfl

/-- Steps that announce the same, and answer the same up to totals, end with the same decision. -/
theorem Session.decides_congr {s s' : Session} {op : Op}
    (hevents : (s'.step op).events = (s.step op).events)
    (hresult : (s'.step op).result.withoutTotals = (s.step op).result.withoutTotals)
    (decision : Decision) : s'.Decides op decision ↔ s.Decides op decision := by
  unfold Decides
  rw [hevents, ← Answer.reports_withoutTotals, hresult, Answer.reports_withoutTotals]

/-! ## Resets -/

namespace Session

/-- A reset asks for its counter to be set to zero, if for anything, and does nothing else. -/
theorem asks_talk_reset (s : Session) {op : Op} {d : Dimension} {value : String}
    (h : op.reset? = some (d, value)) :
    (s.talk op).Asks (· = .set (d.key value) 0) ∧ op.touch = id ∧ op.reschedule = id := by
  obtain ⟨htalk, htouch, hreschedule⟩ := s.talk_plain op
  rw [← htalk, ← htouch, ← hreschedule]
  unfold Op.reset? at h
  split at h
  · next login hplain =>
    cases h
    rw [hplain]
    exact ⟨asks_map _ (Engine.asks_resetLogin rfl), rfl, rfl⟩
  · next address hplain =>
    cases h
    rw [hplain]
    exact ⟨asks_map _ (Engine.asks_resetAddress rfl), rfl, rfl⟩
  · cases h

/-- A reset leaves a session that matches, where the relation does not look at its counter. -/
theorem matches_reset (s : Session) {op : Op} {d : Dimension} {value : String}
    (h : op.reset? = some (d, value)) (hself : R s.site.stores.counters s.site.stores.counters)
    (hset : ∀ c', R s.site.stores.counters c' →
      R s.site.stores.counters (c'.set (d.key value) 0)) :
    s.Matches R (s.step op).state := by
  obtain ⟨hasks, htouch, hreschedule⟩ := s.asks_talk_reset h
  have hwrites : (s.talk op).Asks (Request.Writes fun key n => key = d.key value ∧ n = 0) :=
    hasks.mono fun request heq => heq ▸ ⟨rfl, rfl⟩
  refine s.matches_writes hwrites htouch hreschedule hself ?_
  rintro c' key n ⟨rfl, rfl⟩ hc'
  exact hset c' hc'

end Session

end LoginAdmission
