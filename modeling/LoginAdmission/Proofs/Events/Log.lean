/-
  The events as a log: all that was done, and nothing else, from which the lists can be made again.

  `EventLog` is what the events of a run promise. That they tell what was done is
  `Session.announced_eq_tidings`. That the lists can be made of them joins two facts: the tables
  hold what the stores made of their edits (`ListStore.Replays`), and the changes that a step
  announces are these edits, in order (`Session.changes_step`).

  Main statement: `event_log`, for runs on lists that begin empty, whatever faults are laid on the
  stores.
-/
import LoginAdmission.Proofs.Events.Announced
import LoginAdmission.Proofs.Events.Replay

namespace LoginAdmission

open Storage Procedure

/-- Nobody changes the lists past the stores: no row is written into a table, and a table that is
dropped is not made anew. -/
structure Undisturbed (ops : List Op) : Prop where
  unwritten : ∀ list id ip mask, .insertRow list id ip mask ∉ ops
  dropped : ops.Pairwise fun op later => (∃ list, op = .dropTable list) → later ≠ .reattach

/-- A list cannot be shown: a fault is laid on the question, or the database is closed or has lost
the table. -/
def Site.Withholds (s : Site) (list : AccessList) : Prop :=
  (∃ fault ∈ s.stores.faults, fault.hits (.enumerate list) = true) ∨
    ∃ db, s.stores.lists = .database db ∧ (db.closed = true ∨ db.table? list = none)

/-- What the events of a run promise. -/
structure EventLog (start : Session) (ops : List Op) : Prop where
  /-- The events are just what is to be told of the operations, in their order. -/
  told : start.announced ops = start.tidings ops
  /-- What is told is what was done: the operation behind another does the same at the stores. -/
  behind : ∀ (s : Session) op, (s.step op.behind).calls = (s.step op).calls ∧
    (s.step op.behind).state.site = (s.step op).state.site
  /-- An edit that goes well is one of a subnet, so that there is something to be told of it. -/
  paired : ∀ (s : Session) list ip mask,
    (∃ id, (s.step (.add list ip mask)).result = .added id) ∨
      (s.step (.remove list ip mask)).result = .done →
    ∃ subnet, Subnet.make ip mask = .ok subnet
  /-- A buffer that lost nothing by its count and was not cleared shows all events. The count is a
  word, so it says so of fewer events than a word can count. -/
  shown : .clearEvents ∉ ops → ∃ items evicted,
    ((start.after ops).step .events).result = .events items evicted ∧
      ((start.announced ops).length < wordBound → evicted = 0 → items = start.announced ops)
  /-- However many events there are, a buffer with room for them shows them all. -/
  roomy : .clearEvents ∉ ops → ∀ b, start.site.sink = .buffer b →
    (start.announced ops).length ≤ b.recent.capacity →
    ((start.after ops).step .events).result = .events (start.announced ops) 0
  /-- A list that can be shown has just the entries that the events make of an empty one, in the
  order of their numbers. -/
  replayed : Undisturbed ops → ∀ list,
    let entries := Event.replayed list (start.announced ops)
    ((start.after ops).step (.listAll list)).result =
        .entries (entries.mergeSort fun a b => a.id ≤ b.id) ∨
      (start.after ops).site.Withholds list ∧
        ∃ e, ((start.after ops).step (.listAll list)).result = .failed (.ofStore e)
  /-- While there are numbers left, the events make the entries in this order, each pair once. -/
  ordered : Undisturbed ops → ∀ list,
    Event.additions list (start.announced ops) < wordBound →
    (Event.replayed list (start.announced ops)).Pairwise
      fun a b => a.id < b.id ∧ a.subnet ≠ b.subnet

/-! ## The changes of a step -/

/-- A request that edits no list. -/
def Request.EditsNothing : Request → Prop
  | .add .. | .remove .. => False
  | _ => True

theorem Request.EditsNothing.change? {call : Call} (h : call.request.EditsNothing) :
    call.change? = none := by
  obtain ⟨request, answer⟩ := call
  cases request with
  | add | remove => exact h.elim
  | _ => rfl

/-- Only an addition or a removal is told as a change. -/
theorem Op.filter_tells {op : Op} (hadd : ∀ list ip mask, op ≠ .add list ip mask)
    (hremove : ∀ list ip mask, op ≠ .remove list ip mask) (t : Session.Step) :
    (op.tells t).filter Event.isChange = [] := by
  cases op with
  | add list ip mask => exact absurd rfl (hadd list ip mask)
  | remove list ip mask => exact absurd rfl (hremove list ip mask)
  | advance millis =>
    refine List.filter_eq_nil_iff.mpr fun event hevent => ?_
    obtain ⟨call, -, hcall⟩ := List.mem_filterMap.mp hevent
    unfold Call.flushEvent? at hcall
    split at hcall <;> cases hcall <;> exact Bool.false_ne_true
  | evaluate | resetLogin | resetAddress | flush =>
    unfold tells
    cases t.result <;> rfl
  | _ => rfl

namespace Session

variable (s : Session) {op : Op}

/-- No operation but an addition or a removal asks for a list to be edited. -/
theorem asks_edits (hcommand : op.command? = none)
    (hgate : ∀ attempt handler, op ≠ .gate attempt handler)
    (hadd : ∀ list ip mask, op ≠ .add list ip mask)
    (hremove : ∀ list ip mask, op ≠ .remove list ip mask) :
    (s.talk op).Asks Request.EditsNothing := by
  refine (s.asks_direct hcommand hgate).mono fun request hasks => ?_
  cases hasks with
  | add => exact absurd rfl (hadd _ _ _)
  | remove => exact absurd rfl (hremove _ _ _)
  | _ => trivial

/-- What a step announces of the lists is what the stores made of its edits, in order. -/
theorem changes_direct (hcommand : op.command? = none)
    (hgate : ∀ attempt handler, op ≠ .gate attempt handler) :
    (s.step op).events.filter Event.isChange = (s.step op).calls.filterMap Call.change? := by
  by_cases hadd : ∃ list ip mask, op = .add list ip mask
  · obtain ⟨list, ip, mask, rfl⟩ := hadd
    simp only [step, converse, Engine.add, Engine.withInput]
    cases Subnet.make ip mask with
    | error e => rfl
    | ok subnet =>
      simp only [Procedure.run]
      cases (Site.host.answer (.add list subnet) s.site).1 <;> rfl
  by_cases hremove : ∃ list ip mask, op = .remove list ip mask
  · obtain ⟨list, ip, mask, rfl⟩ := hremove
    simp only [step, converse, Engine.remove, Engine.withInput]
    cases Subnet.make ip mask with
    | error e => rfl
    | ok subnet =>
      simp only [Procedure.run]
      cases (Site.host.answer (.remove list subnet) s.site).1 <;> rfl
  have hnotadd : ∀ list ip mask, op ≠ .add list ip mask :=
    fun list ip mask heq => hadd ⟨list, ip, mask, heq⟩
  have hnotremove : ∀ list ip mask, op ≠ .remove list ip mask :=
    fun list ip mask heq => hremove ⟨list, ip, mask, heq⟩
  have hasks := s.asks_edits hcommand hgate hnotadd hnotremove
  rw [s.events_direct hcommand hgate, Op.filter_tells hnotadd hnotremove, (s.step_site op).1]
  refine (List.filterMap_eq_nil_iff.mpr fun call hcall => ?_).symm
  exact Request.EditsNothing.change? (request_of_mem_calls Site.host hasks s.site call hcall)

/-- The same of commands and of requests at the gate. -/
theorem changes_step (op : Op) :
    (s.step op).events.filter Event.isChange = (s.step op).calls.filterMap Call.change? := by
  obtain ⟨hcalls, hevents, -⟩ := s.step_behind op
  obtain ⟨hcommand, hgate⟩ := op.direct_behind
  rw [← hcalls, ← hevents]
  exact s.changes_direct hcommand hgate

/-- An edit of no subnet fails before the stores are asked. -/
theorem make_of_edited (list : AccessList) (ip : String) (mask : UInt8)
    (h : (∃ id, (s.step (.add list ip mask)).result = .added id) ∨
      (s.step (.remove list ip mask)).result = .done) :
    ∃ subnet, Subnet.make ip mask = .ok subnet := by
  cases hsubnet : Subnet.make ip mask with
  | ok subnet => exact ⟨subnet, rfl⟩
  | error e =>
    simp only [step, converse, Engine.add, Engine.remove, Engine.withInput, hsubnet, Procedure.run,
      Answer.ofResult, reduceCtorEq, exists_false, or_self] at h

end Session

/-! ## Runs -/

/-- A change of the database, if there is one and the change is possible. -/
theorem Site.withDatabase_lists {P : ListStore → Prop} {s : Site}
    {change : Database → Option Database} (h : P s.stores.lists)
    (hchange : ∀ db db', s.stores.lists = .database db → change db = some db' →
      P (.database db')) : P (s.withDatabase change).stores.lists := by
  unfold withDatabase
  split
  · exact h
  · next db hdb =>
    split
    · next db' hdb' => exact hchange db db' hdb hdb'
    · exact h

/-- Past the conversations, only raw rows and lost tables could change what the lists hold. -/
theorem Op.touch_replays {op : Op} {whole whole' : Prop} {s : Site} {events : List Event}
    (h : s.stores.lists.Replays whole events) (himp : whole' → whole)
    (hunwritten : ∀ list id ip mask, op ≠ .insertRow list id ip mask)
    (hdropped : ∀ list, op = .dropTable list → ¬ whole') (hwhole : op = .reattach → whole) :
    (op.touch s).stores.lists.Replays whole' events := by
  have hmono := h.mono himp
  cases op with
  | insertRow list id ip mask => exact absurd rfl (hunwritten list id ip mask)
  | clearEvents =>
    simp only [touch]
    split <;> exact hmono
  | dropTable list =>
    refine Site.withDatabase_lists hmono fun db db' hdb hdb' l => ?_
    cases hdb'
    rw [hdb] at hmono
    rw [Database.table?_setTable]
    split
    · next hl => exact ⟨hl ▸ (hmono list).1.ordered, fun hwhole => (hdropped list rfl hwhole).elim⟩
    · exact hmono l
  | closeDatabase =>
    refine Site.withDatabase_lists hmono fun db db' hdb hdb' l => ?_
    cases hdb'
    rw [hdb] at hmono
    cases l
    · exact hmono .allow
    · exact hmono .deny
  | reattach =>
    refine Site.withDatabase_lists hmono fun db db' hdb hdb' => ?_
    rw [hdb] at h hmono
    cases hclosed : db.closed with
    | true => simp [Database.reattach, hclosed, Except.toOption] at hdb'
    | false =>
      rw [Database.reattach_of_whole (fun l => (h l).2 (hwhole rfl)) hclosed] at hdb'
      cases hdb'
      exact hmono
  | _ => exact hmono

namespace Session

variable {s : Session} {events : List Event}

theorem replays_step {op : Op} {ops : List Op}
    (h : s.site.stores.lists.Replays (.reattach ∈ op :: ops) events)
    (hops : Undisturbed (op :: ops)) :
    (s.step op).state.site.stores.lists.Replays (.reattach ∈ ops)
      (events ++ (s.step op).events.filter Event.isChange) := by
  obtain ⟨hcalls, -, hsite⟩ := s.step_site op
  obtain ⟨hfirst, -⟩ := List.pairwise_cons.mp hops.dropped
  rw [s.changes_step, hcalls, hsite]
  refine Op.touch_replays (Site.replays_run _ h) (List.mem_cons_of_mem op) ?_ ?_ ?_
  · rintro list id ip mask rfl
    exact hops.unwritten list id ip mask List.mem_cons_self
  · exact fun list hlist hmem => hfirst _ hmem ⟨list, hlist⟩ rfl
  · rintro rfl
    exact List.mem_cons_self

theorem replays_after {ops : List Op}
    (h : s.site.stores.lists.Replays (.reattach ∈ ops) events) (hops : Undisturbed ops) :
    (s.after ops).site.stores.lists.Replays False
      (events ++ (s.announced ops).filter Event.isChange) := by
  induction ops generalizing s events with
  | nil => simpa [announced, run, after] using h
  | cons op ops ih =>
    have hlater : Undisturbed ops :=
      ⟨fun list id ip mask hmem => hops.unwritten list id ip mask (List.mem_cons_of_mem op hmem),
        (List.pairwise_cons.mp hops.dropped).2⟩
    have hrest := ih (replays_step h hops) hlater
    rwa [List.append_assoc, ← List.filter_append] at hrest

end Session

/-! ## Showing a list -/

/-- A database with the table at hand shows the entries in the order in which they were made, which
is that of their numbers. -/
theorem Storage.Database.enumerate_of_replays {db : Database} {r : RowTable} {list : AccessList}
    {events : List Event} (hopen : db.openTable list = .ok r)
    (h : RowTable.Replays list events (some r)) :
    db.enumerate list =
      .ok ((Event.replayed list events).mergeSort fun a b => a.id ≤ b.id, db) := by
  have hordered := h.ordered
  obtain ⟨t, hmirrors, hentries, -⟩ := h
  have hsorted : (Event.replayed list events).mergeSort (fun a b => a.id ≤ b.id) =
      Event.replayed list events :=
    List.mergeSort_of_pairwise (hordered.imp fun hab => decide_eq_true (UInt64.le_of_lt hab.1))
  simp only [enumerate, hopen, Bind.bind, Except.bind, hmirrors.rows, hentries, Row.mapM_entry,
    hsorted]
  rfl

theorem ListStore.Replays.enumerate {store : ListStore} {whole : Prop} {events : List Event}
    (h : store.Replays whole events) (list : AccessList) :
    (store.enumerate list).1 =
        .ok ((Event.replayed list events).mergeSort fun a b => a.id ≤ b.id) ∨
      (∃ db, store = .database db ∧ (db.closed = true ∨ db.table? list = none)) ∧
        ∃ e, (store.enumerate list).1 = .error e := by
  cases store with
  | memory m =>
    refine .inl ?_
    rw [← (h list).entries]
    rfl
  | database db =>
    cases hclosed : db.closed with
    | true =>
      refine .inr ⟨⟨db, rfl, .inl hclosed⟩, .unavailable Outage.closed.message, ?_⟩
      simp only [ListStore.enumerate, Database.enumerate, Database.openTable, hclosed]
      rfl
    | false =>
      cases htable : db.table? list with
      | none =>
        refine .inr ⟨⟨db, rfl, .inr htable⟩, .unavailable (Outage.noTable list).message, ?_⟩
        simp only [ListStore.enumerate, Database.enumerate, Database.openTable, hclosed, htable]
        rfl
      | some r =>
        refine .inl ?_
        have hopen : db.openTable list = .ok r := by
          simp [Database.openTable, hclosed, htable]
        have hreplays := (h list).1
        rw [htable] at hreplays
        simp only [ListStore.enumerate, Database.enumerate_of_replays hopen hreplays, ofDatabase]

theorem ListStore.Replays.ordered {store : ListStore} {whole : Prop} {events : List Event}
    (h : store.Replays whole events) {list : AccessList}
    (hroom : Event.additions list events < wordBound) :
    (Event.replayed list events).Pairwise fun a b => a.id < b.id ∧ a.subnet ≠ b.subnet := by
  cases store with
  | memory m =>
    rw [← (h list).entries]
    exact ((h list).numbered hroom).2.ordered
  | database db => exact (h list).1.ordered

namespace Session

/-- What a session answers that is asked for a list. -/
theorem result_listAll {s : Session} {whole : Prop} {events : List Event}
    (h : s.site.stores.lists.Replays whole events) (list : AccessList) :
    (s.step (.listAll list)).result =
        .entries ((Event.replayed list events).mergeSort fun a b => a.id ≤ b.id) ∨
      s.site.Withholds list ∧ ∃ e, (s.step (.listAll list)).result = .failed (.ofStore e) := by
  simp only [step, converse, Engine.listAll, query, Procedure.run]
  rcases Site.host_answer_cases (.enumerate list) s.site with ⟨fault, hfault, hhits, heq⟩ | heq
  · refine .inr ⟨.inl ⟨fault, hfault, hhits⟩, fault.error, ?_⟩
    simp only [heq, Procedure.run, Answer.ofResult]
  · simp only [heq, Stores.serve, Stores.withLists]
    rcases h.enumerate list with hentries | ⟨hwithheld, e, he⟩
    · refine .inl ?_
      simp only [hentries, Procedure.run, Answer.ofResult]
    · refine .inr ⟨.inr hwithheld, e, ?_⟩
      simp only [he, Procedure.run, Answer.ofResult]

end Session

/-! ## The law -/

/-- The events of a run on lists that begin empty are a log of all that was done, from which the
lists can be made again. -/
theorem event_log (limits : Thresholds) (lists : ListStore) (capacity : Nat) (audit : AuditTrail)
    (historyCapacity : Nat) (ops : List Op) (hlists : lists.Fresh) :
    EventLog (Session.create limits lists (.buffer (.ofCapacity capacity)) audit historyCapacity)
      ops := by
  generalize hstart : Session.create limits lists (.buffer (.ofCapacity capacity)) audit
    historyCapacity = start
  have hbegin : start.site.stores.lists.Replays (.reattach ∈ ops) [] := by
    subst hstart
    exact .start hlists
  have hsink : start.site.sink = .buffer (.ofCapacity capacity) := by
    subst hstart
    rfl
  constructor
  case told => exact start.announced_eq_tidings ops
  case behind => exact fun s op => ⟨(s.step_behind op).1, (s.step_behind op).2.2⟩
  case paired => exact fun s => s.make_of_edited
  case shown => exact Session.result_events hsink
  case roomy =>
    intro hclear b hb hroom
    cases hsink.symm.trans hb
    exact Session.result_events_of_room hsink hclear hroom
  case replayed =>
    intro hops list
    have hafter := Session.replays_after hbegin hops
    have hresult := Session.result_listAll hafter list
    rwa [List.nil_append, Event.replayed_changes] at hresult
  case ordered =>
    intro hops list hroom
    have hafter := Session.replays_after hbegin hops
    rw [← Event.replayed_changes]
    refine hafter.ordered ?_
    rwa [List.nil_append, Event.additions_changes]

/-- A pair goes from list to list by operations and commands, while faults stand in the way of a
removal and of flushes by hand and by a timer, and a table is lost in the end. -/
theorem event_log_outages :
    let ops : List Op := [.add .deny "10.0.0.0" 8, .add .allow "10.0.0.0" 8,
      .gate ⟨"ann", "pw", "10.0.0.1"⟩ .welcoming,
      .execute ⟨"c-1", none, none⟩ (.add .allow "10.1.0.0" 16), .line "wlrm 10.1.0.0/16",
      .fail ⟨.remove, "", .unavailable "down"⟩, .remove .deny "10.0.0.0" 8, .heal, .reattach,
      .remove .deny "10.0.0.0" 8, .resetLogin "ann", .start "minutely" 60000,
      .fail ⟨.flush, "", .unavailable "down"⟩, .flush, .advance 60000, .dropTable .deny]
    let start := Session.create ⟨1, 5, 5⟩ (.database .empty) (.buffer (.ofCapacity 100))
      .rejecting 1
    ListStore.Fresh (.database .empty) ∧ Undisturbed ops ∧ .clearEvents ∉ ops ∧
      EventLog start ops := by
  intro ops start
  have hops : Undisturbed ops := ⟨by simp [ops], by simp [ops]⟩
  exact ⟨.inr rfl, hops, by simp [ops], event_log _ _ _ _ _ ops (.inr rfl)⟩

end LoginAdmission
