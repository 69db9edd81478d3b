/-
  No subnet without a check.

  A subnet is made of a raw pair in four ways: of arguments, from a text, from a row and from JSON.
  Each checks the number first. A session holds only subnets that were made so, because a session in
  which all subnets have some property goes on to be one as long as its operations name no others
  (`Session.HoldsOnly.step`). So every subnet that a session ever shows was named by one of its
  operations, with a mask.

  Main statement: `validation_law`. It ends with the shift that is safe because there are no others.
-/
import LoginAdmission.Proofs.Address.Blocks
import LoginAdmission.Proofs.Errands
import LoginAdmission.Proofs.Provenance.Readings
import LoginAdmission.Proofs.Provenance.Relays

namespace LoginAdmission

open Mentions (subnets)

/-- The pair that an operation has as its argument. -/
def Op.argument? : Op → Option (String × UInt8)
  | .add _ ip mask | .remove _ ip mask | .listed _ ip mask => some (ip, mask)
  | _ => none

/-- A command has the argument of the operation that it stands for. -/
theorem Op.argument?_of_command {op : Op} {command : Command} (h : op.command? = some command) :
    op.plain.argument? = command.argument? := by
  rw [plain, h]
  cases command <;> rfl

/-- An operation names a pair of an address text and a number: as its argument or that of its
command, in a row that it writes past the store, or in a failure that it lays on the stores. -/
inductive Op.Names : Op → String → Nat → Prop
  | argument {op : Op} {ip : String} {mask : UInt8} (h : op.plain.argument? = some (ip, mask)) :
    Names op ip mask.toNat
  | row {list : AccessList} {id : Option Int} {ip : String} {m : Nat} :
    Names (.insertRow list id (.text ip) (.integer m)) ip m
  | fault {fault : Fault} {s : Subnet} (h : s ∈ subnets fault) :
    Names (.fail fault) s.ip.text s.mask

/-- The subnet is made of a pair that one of the operations names. -/
def NamedIn (ops : List Op) (s : Subnet) : Prop :=
  ∃ op ∈ ops, ∃ ip m, op.Names ip m ∧ s.MadeOf ip m

/-- No event is in the sink. -/
def Sink.Fresh (sink : Sink) : Prop := ∀ b, sink = .buffer b → b.recent.items = []

/-- The session holds subnets with the property only. -/
structure Session.HoldsOnly (P : Subnet → Prop) (s : Session) : Prop where
  site : s.site.HoldsOnly P
  history : Only P s.books.history.items

/-- A step shows subnets with the property only, and leaves a session that holds only such. -/
structure Session.ShowsOnly (P : Subnet → Prop) (t : Step) : Prop where
  seen : Only P t
  state : t.state.HoldsOnly P

/-- How subnets come about, and that there are no others. -/
structure ValidationLaw : Prop where
  /-- A pair makes the subnet with that address and that number, if the number is a mask. -/
  made : ∀ ip mask s, Subnet.make ip mask = .ok s ↔ s.MadeOf ip mask.toNat
  /-- Any other number after a good address is refused for what is wrong with it. -/
  unmade : ∀ (a : Address) mask e, Subnet.make a.text mask = .error e ↔ MaskFault mask.toNat e
  /-- A text is read as the subnet of the pair that it gives. -/
  text : ∀ text s, Subnet.parse text = .ok s ↔
    ∃ ip m, Subnet.Given text ip m ∧ s.MadeOf ip.text m
  /-- A text that gives any other number of a byte is refused for the same reason. -/
  textFault : ∀ text ip m e, Subnet.Given text ip m → m ≤ 255 → MaskFault m e →
    Subnet.parse text = .error e
  /-- A table of the database is enumerated when every row makes an entry's subnet. -/
  rows : ∀ (db : Storage.Database) list entries db', db.enumerate list = .ok (entries, db') →
    ∃ t, db.table? list = some t ∧ List.Forall₂ (fun r e => r.Makes e.subnet) t.rows entries
  /-- All subnets in what is read from JSON stand there as pairs with a mask. -/
  json : Wire.Vets Subnet ∧ Wire.Vets Entry ∧ Wire.Vets (List Entry) ∧ Wire.Vets Outcome ∧
    Wire.Vets HistoryRecord
  /-- A pair whose number is no mask is refused wherever it stands. -/
  jsonFault : ∀ source j ip mask e, Subnet.layout.read source j = .ok (ip, mask) →
    MaskFault mask.toNat e → Wire.read (α := Subnet) source j = Json.refuse (.refused e.message)
  /-- Every subnet that a step of a session shows or leaves was named by an operation up to it. -/
  shown : ∀ limits lists sink audit historyCapacity ops op, ListStore.Fresh lists →
    Sink.Fresh sink → Session.ShowsOnly (NamedIn (ops ++ [op]))
      (((Session.create limits lists sink audit historyCapacity).after ops).step op)
  /-- An operation on a pair whose number is no mask fails for its input and does nothing. -/
  refused : ∀ (s : Session) op ip mask, op.plain.argument? = some (ip, mask) →
    ¬ IsMask mask.toNat →
    (s.step op).calls = [] ∧ (s.step op).events = [] ∧ (s.step op).state.site = s.site ∧
      ∃ e, (s.step op.plain).result = .failed (.invalid e) ∧
        ∀ a : Address, ip = a.text → MaskFault mask.toNat e
  /-- The shift of a mask is one by 1 to 31 bits, so it is always possible. -/
  shift : ∀ s : Subnet, IsMask (32 - s.mask) ∧
    Subnet.shiftedLeft? (BitVec.allOnes 32) (32 - s.mask) = some s.netmask

/-! ## One operation -/

namespace Session.HoldsOnly

variable {α : Type} [Mentions α] {P : Subnet → Prop} {s : Session}

theorem answered (h : s.HoldsOnly P) {answer : Answer} (hanswer : Only P answer) :
    ShowsOnly P (s.answered answer) :=
  ⟨only_transcript.mpr ⟨hanswer, only_nil, only_nil, only_nil⟩, h⟩

theorem converse (h : s.HoldsOnly P) {p : Procedure α} (hp : p.Relays P) {answer : α → Answer}
    (hanswer : ∀ a, Only P a → Only P (answer a)) : ShowsOnly P (s.converse p answer) := by
  obtain ⟨hseen, hsite⟩ := Procedure.run_relays hp h.site
  obtain ⟨hresult, hrest⟩ := only_transcript.mp hseen
  exact ⟨only_transcript.mpr ⟨hanswer _ hresult, hrest⟩, ⟨hsite, h.history⟩⟩

theorem converse_ofResult (h : s.HoldsOnly P) {p : Procedure (Except Failure α)}
    (hp : p.Relays P) {make : α → Answer} (hmake : ∀ a, Only P a → Only P (make a)) :
    ShowsOnly P (s.converse p (.ofResult make)) := by
  refine h.converse hp fun result hresult => ?_
  cases result with
  | error e => exact hresult
  | ok a => exact hmake a hresult

theorem withStores (h : s.HoldsOnly P) (stores : Stores) (hlists : stores.lists.HoldsOnly P)
    (hfaults : Only P stores.faults) : (s.withStores stores).HoldsOnly P :=
  ⟨⟨hlists, hfaults, h.site.sink⟩, h.history⟩

theorem withSink (h : s.HoldsOnly P) {sink : Sink}
    (hsink : ∀ b, sink = .buffer b → Only P b.recent.items) : (s.withSink sink).HoldsOnly P :=
  ⟨⟨h.site.lists, h.site.faults, hsink⟩, h.history⟩

theorem withLists (h : s.HoldsOnly P) {lists : ListStore} (hlists : lists.HoldsOnly P) :
    (s.withLists lists).HoldsOnly P :=
  h.withStores _ hlists h.site.faults

theorem withDatabase (h : s.HoldsOnly P) {change : Storage.Database → Session × Answer}
    (hchange : ∀ db, (ListStore.database db).HoldsOnly P →
      (change db).1.HoldsOnly P ∧ Only P (change db).2) : ShowsOnly P (s.withDatabase change) := by
  unfold Session.withDatabase
  split
  · next db hlists =>
    obtain ⟨hstate, hanswer⟩ := hchange db (hlists ▸ h.site.lists)
    exact hstate.answered hanswer
  · exact h.answered (only_of_nil rfl)

theorem reattach (h : s.HoldsOnly P) : ShowsOnly P s.reattach := by
  unfold Session.reattach
  split
  · exact h.answered (only_of_nil rfl)
  · next db hlists =>
    have hdb : (ListStore.database db).HoldsOnly P := hlists ▸ h.site.lists
    split
    · next db' hreattach =>
      exact (h.withLists (hdb.reattach hreattach)).answered (only_of_nil rfl)
    · next e hreattach =>
      cases e with
      | refused e => exact absurd hreattach Storage.Database.reattach_ne_refused
      | outage cause =>
        exact ⟨only_transcript.mpr ⟨only_of_nil rfl, only_nil, only_of_nil rfl, only_nil⟩, h⟩

theorem start (h : s.HoldsOnly P) (handle : String) (millis : Nat) :
    ShowsOnly P (s.start handle millis) := by
  unfold Session.start
  split
  · exact h.answered (only_of_nil rfl)
  · refine ⟨only_transcript.mpr ⟨only_of_nil rfl, only_nil, ?_, only_nil⟩, ⟨h.site, h.history⟩⟩
    split <;> exact only_of_nil rfl

theorem stop (h : s.HoldsOnly P) (handle : String) : ShowsOnly P (s.stop handle) := by
  unfold Session.stop
  refine ⟨only_transcript.mpr ⟨only_of_nil rfl, only_nil, ?_, only_nil⟩, ⟨h.site, h.history⟩⟩
  split <;> exact only_of_nil rfl

theorem gate (h : s.HoldsOnly P) (attempt : Attempt) (handler : Handler) :
    ShowsOnly P (s.gate attempt handler) := by
  obtain ⟨hseen, hsite⟩ :=
    Procedure.run_relays (Gate.relays_pass s.limits attempt handler) h.site
  obtain ⟨hresult, hrest⟩ := only_transcript.mp hseen
  exact ⟨only_transcript.mpr ⟨hresult, hrest⟩, ⟨hsite, h.history⟩⟩

/-- An outcome goes into the books, and nothing else. -/
theorem enter {b : Books} (h : Only P b.history.items) {outcome : Outcome}
    (houtcome : Only P outcome) (origin : Origin) (label : String) :
    let entered := b.enter origin label outcome
    Only P entered.1 ∧ Only P entered.2.1.history.items ∧ Only P entered.2.2 := by
  have hhistory : Only P (b.history.append ⟨origin, label, outcome⟩).items := by
    rw [Recent.append_eq_push]
    exact only_push h houtcome
  unfold Books.enter
  cases b.audit with
  | absent | memory => exact ⟨houtcome, hhistory, only_nil⟩
  | log => exact ⟨houtcome, hhistory, only_of_nil rfl⟩
  | rejecting => exact ⟨only_of_nil rfl, hhistory, only_nil⟩

/-- The books keep what a command gave. -/
theorem execute (h : s.HoldsOnly P) (origin : Origin) {command : Command}
    (hcommand : ∀ ip mask, command.argument? = some (ip, mask) →
      ∀ s : Subnet, s.MadeOf ip mask.toNat → P s) : ShowsOnly P (s.execute origin command) := by
  obtain ⟨hseen, hsite⟩ :=
    Procedure.run_relays (Control.relays_carryOut s.limits origin hcommand) h.site
  obtain ⟨houtcome, hcalls, hlogs, hevents⟩ := only_transcript.mp hseen
  obtain ⟨hresult, hhistory, hlines⟩ := enter h.history houtcome origin command.label
  exact ⟨only_transcript.mpr ⟨hresult, hcalls, only_append.mpr ⟨hlogs, hlines⟩, hevents⟩,
    ⟨hsite, hhistory⟩⟩

theorem executeRead (h : s.HoldsOnly P) {read : Except CommandError Command}
    (hread : ∀ command, read = .ok command → ∀ ip mask, command.argument? = some (ip, mask) →
      ∀ s : Subnet, s.MadeOf ip mask.toNat → P s) : ShowsOnly P (s.executeRead read) := by
  cases read with
  | error e => exact h.answered (only_of_nil rfl)
  | ok command =>
    have harrived : HoldsOnly P
        { s with books := { s.books with arrivals := s.books.arrivals + 1 } } :=
      ⟨h.site, h.history⟩
    exact harrived.execute (.console s.books.arrivals) (hread command rfl)

theorem clearEvents (h : s.HoldsOnly P) : ShowsOnly P (s.step .clearEvents) := by
  simp only [Session.step]
  split
  · next b hbuffer =>
    have hsink : ∀ b', Sink.buffer b.clear = .buffer b' → Only P b'.recent.items := by
      rintro _ ⟨⟩
      exact only_nil
    exact (h.withSink hsink).answered (only_of_nil rfl)
  · exact h.answered (only_of_nil rfl)

theorem clearHistory (h : s.HoldsOnly P) : ShowsOnly P (s.step .clearHistory) := by
  have hcleared : HoldsOnly P
      { s with books := { s.books with history := s.books.history.clear } } :=
    ⟨h.site, only_nil⟩
  exact hcleared.answered (only_of_nil rfl)

theorem fail (h : s.HoldsOnly P) {fault : Fault} (hfault : Only P fault) :
    ShowsOnly P (s.step (.fail fault)) := by
  have hlaid := h.withStores
    { s.site.stores with faults := s.site.stores.faults ++ [fault] } h.site.lists
    (only_append.mpr ⟨h.site.faults, only_cons.mpr ⟨hfault, only_nil⟩⟩)
  exact hlaid.answered (only_of_nil rfl)

theorem heal (h : s.HoldsOnly P) : ShowsOnly P (s.step .heal) := by
  have hhealed := h.withStores { s.site.stores with faults := [] } h.site.lists only_nil
  exact hhealed.answered (only_of_nil rfl)

theorem setCounter (h : s.HoldsOnly P) (key : String) (value : UInt64) :
    ShowsOnly P (s.step (.setCounter key value)) := by
  have hset := h.withStores
    { s.site.stores with counters := s.site.stores.counters.set key value } h.site.lists
    h.site.faults
  exact hset.answered (only_of_nil rfl)

theorem insertRow (h : s.HoldsOnly P) (list : AccessList) (id : Option Int) {ip mask : Storage.Cell}
    (hrow : ∀ s : Subnet, ip = .text s.ip.text → mask = .integer s.mask → P s) :
    ShowsOnly P (s.step (.insertRow list id ip mask)) := by
  refine h.withDatabase fun db hdb => ?_
  cases hinsert : db.insertRaw? list id ip mask with
  | none => exact ⟨h, only_of_nil rfl⟩
  | some db' => exact ⟨h.withLists (hdb.insertRaw hrow hinsert), only_of_nil rfl⟩

/-- One operation. -/
theorem step (h : s.HoldsOnly P) {op : Op}
    (hop : ∀ ip m, op.Names ip m → ∀ s : Subnet, s.MadeOf ip m → P s) :
    ShowsOnly P (s.step op) := by
  have hargument : ∀ ip mask, op.plain.argument? = some (ip, mask) →
      ∀ s : Subnet, s.MadeOf ip mask.toNat → P s :=
    fun ip mask harg => hop ip mask.toNat (.argument harg)
  have hcommand : ∀ command, op.command? = some command → ∀ ip mask,
      command.argument? = some (ip, mask) → ∀ s : Subnet, s.MadeOf ip mask.toNat → P s :=
    fun command hcommand ip mask harg =>
      hargument ip mask ((Op.argument?_of_command hcommand).trans harg)
  cases op with
  | evaluate attempt =>
    exact h.converse_ofResult (Engine.relays_evaluate _ attempt) fun _ _ => only_of_nil rfl
  | inList list address =>
    exact h.converse_ofResult (Engine.relays_inList list address) fun _ _ => only_of_nil rfl
  | add list ip mask =>
    exact h.converse_ofResult (Engine.relays_add (hargument ip mask rfl)) fun _ _ => only_of_nil rfl
  | remove list ip mask =>
    exact h.converse_ofResult (Engine.relays_remove (hargument ip mask rfl))
      fun _ _ => only_of_nil rfl
  | listed list ip mask =>
    exact h.converse_ofResult (Engine.relays_listed (hargument ip mask rfl))
      fun _ _ => only_of_nil rfl
  | listAll list =>
    exact h.converse_ofResult (Engine.relays_listAll list) fun _ hentries => hentries
  | resetLogin login =>
    exact h.converse_ofResult (Engine.relays_resetLogin login) fun _ _ => only_of_nil rfl
  | resetAddress address =>
    exact h.converse_ofResult (Engine.relays_resetAddress address) fun _ _ => only_of_nil rfl
  | flush => exact h.converse_ofResult Engine.relays_flushCounters fun _ _ => only_of_nil rfl
  | check dimension value =>
    unfold Session.step
    refine h.converse (Engine.relays_check s.limits dimension value) fun result hresult => ?_
    cases result with
    | error e => exact hresult
    | ok check => exact only_of_nil rfl
  | gate attempt handler => exact h.gate attempt handler
  | start handle millis => exact h.start handle millis
  | stop handle => exact h.stop handle
  | advance millis =>
    have hlater : HoldsOnly P { s with schedule := s.schedule.advance millis } :=
      ⟨h.site, h.history⟩
    unfold Session.step Session.advance
    exact hlater.converse (relays_flushes _) fun _ _ => only_of_nil rfl
  | line | json =>
    exact h.executeRead fun command hread => hcommand command (toOption_of_mapError hread)
  | execute ticket command => exact h.execute (.ticket ticket) (hcommand command rfl)
  | events =>
    simp only [Session.step]
    split
    · next b hsink => exact h.answered (h.site.sink b hsink)
    · exact h.answered (only_of_nil rfl)
  | clearEvents => exact h.clearEvents
  | history => exact h.answered h.history
  | clearHistory => exact h.clearHistory
  | fail => exact h.fail fun s hs => hop s.ip.text s.mask (.fault hs) s s.madeOf_self
  | heal => exact h.heal
  | setCounter key value => exact h.setCounter key value
  | insertRow list id =>
    refine h.insertRow list id fun s hip hmask => ?_
    subst hip hmask
    exact hop s.ip.text s.mask .row s s.madeOf_self
  | dropTable list =>
    unfold Session.step
    refine h.withDatabase fun db hdb => ?_
    exact ⟨h.withLists (hdb.dropTable list), only_of_nil rfl⟩
  | closeDatabase =>
    unfold Session.step
    refine h.withDatabase fun db hdb => ?_
    exact ⟨h.withLists hdb.close, only_of_nil rfl⟩
  | reattach => exact h.reattach
  | limits | counters | finished | audit | describe => exact h.answered (only_of_nil rfl)

/-- A run of operations. -/
theorem after (h : s.HoldsOnly P) {ops : List Op}
    (hops : ∀ op ∈ ops, ∀ ip m, op.Names ip m → ∀ s : Subnet, s.MadeOf ip m → P s) :
    (s.after ops).HoldsOnly P := by
  induction ops generalizing s with
  | nil => exact h
  | cons op ops ih =>
    obtain ⟨hop, hops⟩ := List.forall_mem_cons.mp hops
    exact ih (h.step hop).state hops

end Session.HoldsOnly

/-! ## All of it -/

theorem Session.holdsOnly_create (P : Subnet → Prop) (limits : Thresholds) {lists : ListStore}
    {sink : Sink} (audit : AuditTrail) (historyCapacity : Nat) (hlists : lists.Fresh)
    (hsink : sink.Fresh) : (create limits lists sink audit historyCapacity).HoldsOnly P where
  site :=
    ⟨.of_fresh hlists, only_nil, fun b hb => hsink b hb ▸ only_nil⟩
  history := only_nil

/-- An argument that makes no subnet is an errand with invalid input. -/
theorem Op.request_of_argument {op : Op} {ip : String} {mask : UInt8} {e : InvalidInput}
    (h : op.argument? = some (ip, mask)) (he : Subnet.make ip mask = .error e) :
    op.request? = some (.error e) := by
  cases op <;> simp only [Op.argument?, Option.some.injEq, Prod.mk.injEq, reduceCtorEq] at h
  case add | remove | listed =>
    obtain ⟨rfl, rfl⟩ := h
    rw [Op.request?, he]
    rfl

theorem Session.step_of_argument {s : Session} {op : Op} {ip : String} {mask : UInt8}
    (h : op.plain.argument? = some (ip, mask)) (hmask : ¬ IsMask mask.toNat) :
    (s.step op).calls = [] ∧ (s.step op).events = [] ∧ (s.step op).state.site = s.site ∧
      ∃ e, (s.step op.plain).result = .failed (.invalid e) ∧
        ∀ a : Address, ip = a.text → MaskFault mask.toNat e := by
  cases hmake : Subnet.make ip mask with
  | ok subnet => exact absurd (Subnet.make_eq_ok_iff.mp hmake).1 hmask
  | error e =>
    have hstep := s.step_refused (Op.request_of_argument h hmake)
    obtain ⟨hcalls, hevents, hground⟩ := s.step_plain op
    have hsite := hground.site
    rw [hstep] at hcalls hevents hsite
    refine ⟨hcalls.symm, hevents.symm, hsite.symm, e, by rw [hstep]; rfl, ?_⟩
    rintro a rfl
    exact Subnet.make_text_eq_error_iff.mp hmake

/-- No subnet exists whose mask was not checked. -/
theorem validation_law : ValidationLaw where
  made _ _ _ := Subnet.make_eq_ok_iff
  unmade _ _ _ := Subnet.make_text_eq_error_iff
  text _ _ := Subnet.parse_eq_ok_iff
  textFault _ _ _ _ hgiven hm he := (hgiven.parse hm).trans (Subnet.ofMask_eq_error_iff.mpr he)
  rows db list entries db' henumerate := by
    obtain ⟨-, t, htable, hrows⟩ := Storage.Database.enumerate_of_ok henumerate
    refine ⟨t, htable, (mapM_eq_ok_iff.mp hrows).imp fun r e hentry => ?_⟩
    exact Storage.Row.makes_of_entry hentry
  json := ⟨Wire.vets_of_draws (Subnet.draws_read .direct),
    Wire.vets_of_draws (Entry.drawsInside_read .direct).draws,
    Wire.vets_of_draws (Json.drawsInside_items (Entry.drawsInside_read .direct).draws).draws,
    Wire.vets_of_draws (Outcome.drawsInside_read .direct).draws,
    Wire.vets_of_draws (HistoryRecord.drawsInside_read .direct).draws⟩
  jsonFault _ _ _ _ _ := Subnet.read_of_fault
  shown limits lists sink audit historyCapacity ops op hlists hsink := by
    have hnamed : ∀ op' ∈ ops ++ [op], ∀ ip m, op'.Names ip m → ∀ s : Subnet, s.MadeOf ip m →
        NamedIn (ops ++ [op]) s :=
      fun op' hop' ip m hnames s hmade => ⟨op', hop', ip, m, hnames, hmade⟩
    obtain ⟨hops, hop⟩ := List.forall_mem_append.mp hnamed
    have hstart := Session.holdsOnly_create (NamedIn (ops ++ [op])) limits audit historyCapacity
      hlists hsink
    exact (hstart.after hops).step (hop op List.mem_cons_self)
  refused s op ip mask := Session.step_of_argument
  shift s := by
    have hpos := s.mask_pos
    have hle := s.mask_le
    refine ⟨⟨by omega, by omega⟩, ?_⟩
    rw [Subnet.netmask, s.shiftedLeft_mask]
    rfl

end LoginAdmission
