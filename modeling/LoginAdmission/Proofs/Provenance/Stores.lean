/-
  What the stores hold, and what they tell of it.

  `HoldsOnly P` says that every subnet on the lists, in a fault or in the sink has the property `P`.
  A database holds the subnets whose pairs stand in its rows; other rows hold none, and cannot be
  read. Asked about subnets with the property, stores that hold only such tell of no others and hold
  no others afterwards.

  Main statements: `Site.HoldsOnly.answer` and `Site.HoldsOnly.hear`.
-/
import LoginAdmission.Proofs.Events.Replay
import LoginAdmission.Proofs.Provenance.Masks
import LoginAdmission.Proofs.Provenance.Mentions

namespace LoginAdmission

open Storage

/-- An answer, the state that is left and the log lines tell of subnets with the property only. -/
def Tells {α σ : Type} [Mentions α] (P : Subnet → Prop) (K : σ → Prop)
    (answered : Except StoreError α × σ × List LogLine) : Prop :=
  Only P answered.1 ∧ K answered.2.1 ∧ Only P answered.2.2

/-- The lists hold subnets with the property only. -/
def ListStore.HoldsOnly (P : Subnet → Prop) : ListStore → Prop
  | memory m => ∀ list, Only P (m.table list).entries
  | database db => ∀ list t, db.table? list = some t →
    ∀ r ∈ t.rows, ∀ s, r.holds s = true → P s

/-- The site holds subnets with the property only. -/
structure Site.HoldsOnly (P : Subnet → Prop) (s : Site) : Prop where
  lists : s.stores.lists.HoldsOnly P
  faults : Only P s.stores.faults
  sink : ∀ b, s.sink = .buffer b → Only P b.recent.items

/-! ## Rows -/

namespace Storage

/-- A row holds a subnet whose pair stands in its columns. -/
theorem Row.holds_iff {r : Row} {s : Subnet} :
    r.holds s = true ↔ r.ip = .text s.ip.text ∧ r.mask = .integer s.mask := by
  unfold holds samePair ofSubnet
  rw [Bool.and_eq_true, decide_eq_true_iff, decide_eq_true_iff]

/-- The subnet of an entry is held by the row that the entry is read from. -/
theorem Row.holds_of_entry {list : AccessList} {r : Row} {e : Entry} (h : r.entry list = .ok e) :
    r.holds e.subnet = true := by
  obtain ⟨ip, m, hip, hmask, -, rfl, rfl⟩ := makes_of_entry h
  exact holds_iff.mpr ⟨hip, hmask⟩

/-- An enumeration reads every row of its table, and changes nothing. -/
theorem Database.enumerate_of_ok {db db' : Database} {list : AccessList} {entries : List Entry}
    (h : db.enumerate list = .ok (entries, db')) :
    db' = db ∧ ∃ t, db.table? list = some t ∧ t.rows.mapM (Row.entry list) = .ok entries := by
  obtain ⟨t, hopen, h⟩ := exists_of_bind h
  split at h
  · next entries' hrows =>
    obtain ⟨rfl, rfl⟩ := Prod.mk.inj (Except.ok.inj h)
    exact ⟨rfl, t, table_of_openTable hopen, hrows⟩
  · cases h

namespace Database

variable {db : Database} {list : AccessList} {subnet : Subnet} {e : StoreError}

/-- What is refused behind a first step that refuses nothing is refused by the second. -/
theorem refused_of_bind {α β : Type} {x : Except DatabaseError α}
    {f : α → Except DatabaseError β} (hx : x ≠ .error (.refused e))
    (h : x >>= f = .error (.refused e)) : ∃ a, x = .ok a ∧ f a = .error (.refused e) := by
  cases x with
  | ok a => exact ⟨a, rfl, h⟩
  | error cause =>
    obtain rfl := Except.error.inj h
    exact absurd rfl hx

/-- A table that cannot be opened is an outage. -/
theorem openTable_ne_refused : db.openTable list ≠ .error (.refused e) := by
  unfold openTable
  split
  · nofun
  · split <;> nofun

theorem insertUnlessHeld_ne_refused : db.insertUnlessHeld list subnet ≠ .error (.refused e) := by
  intro h
  obtain ⟨t, -, h⟩ := refused_of_bind openTable_ne_refused h
  obtain ⟨allow, -, h⟩ := refused_of_bind openTable_ne_refused h
  obtain ⟨deny, -, h⟩ := refused_of_bind openTable_ne_refused h
  split at h
  · cases h
  · dsimp only at h
    split at h <;> cases h

theorem holder_ne_refused : db.holder? subnet ≠ .error (.refused e) := by
  intro h
  obtain ⟨allow, -, h⟩ := refused_of_bind openTable_ne_refused h
  obtain ⟨deny, -, h⟩ := refused_of_bind openTable_ne_refused h
  split at h
  · cases h
  · split at h <;> cases h

/-- An addition is refused for the pair itself, or with a text. -/
theorem add_refused (h : db.add list subnet = .error (.refused e)) :
    (∃ holder, e = .conflict holder subnet) ∨ ∃ text, e = .corrupt text := by
  obtain ⟨⟨id, db'⟩, -, h⟩ := refused_of_bind insertUnlessHeld_ne_refused h
  cases id with
  | none =>
    obtain ⟨holder, -, h⟩ := refused_of_bind holder_ne_refused h
    cases holder with
    | some holder =>
      cases h
      exact .inl ⟨holder, rfl⟩
    | none =>
      cases h
      exact .inr ⟨_, rfl⟩
  | some id =>
    dsimp only at h
    split at h
    · cases h
      exact .inr ⟨_, rfl⟩
    · cases h

theorem remove_refused (h : db.remove list subnet = .error (.refused e)) :
    e = .notFound list subnet := by
  obtain ⟨t, -, h⟩ := refused_of_bind openTable_ne_refused h
  split at h
  · cases h
    rfl
  · cases h

theorem contains_ne_refused : db.contains list subnet ≠ .error (.refused e) := by
  intro h
  obtain ⟨t, -, h⟩ := refused_of_bind openTable_ne_refused h
  cases h

theorem reattach_ne_refused : db.reattach ≠ .error (.refused e) := by
  unfold reattach
  split <;> nofun

theorem enumerate_refused (h : db.enumerate list = .error (.refused e)) :
    ∃ text, e = .corrupt text := by
  obtain ⟨t, -, h⟩ := refused_of_bind openTable_ne_refused h
  split at h
  · cases h
  · cases h
    exact ⟨_, rfl⟩

end Database

end Storage

/-! ## Requests to the lists -/

namespace ListStore

variable {α : Type} [Mentions α] {P : Subnet → Prop} {store : ListStore} {list : AccessList}
  {subnet : Subnet} {db : Database}

/-- A request to a database, by what becomes of it. -/
theorem tells_ofDatabase {result : Except DatabaseError (α × Database)}
    (h : (database db).HoldsOnly P)
    (hok : ∀ a db', result = .ok (a, db') → Only P a ∧ (database db').HoldsOnly P)
    (herror : ∀ e, result = .error (.refused e) → Only P e) :
    Tells P (HoldsOnly P) (ofDatabase db result) := by
  match result with
  | .ok (a, db') =>
    obtain ⟨ha, hdb'⟩ := hok a db' rfl
    exact ⟨ha, hdb', only_nil⟩
  | .error (.refused e) => exact ⟨herror e rfl, h, only_nil⟩
  | .error (.outage cause) => exact ⟨only_of_nil rfl, h, only_of_nil rfl⟩

theorem HoldsOnly.setTable {t : RowTable} (h : (database db).HoldsOnly P)
    (ht : ∀ r ∈ t.rows, ∀ s, r.holds s = true → P s) :
    (database (db.setTable (some t) list)).HoldsOnly P := by
  intro l t' ht'
  rw [Database.table?_setTable] at ht'
  split at ht'
  · obtain rfl := Option.some.inj ht'
    exact ht
  · exact h l t' ht'

theorem HoldsOnly.setTable_memory {m : Memory} {t : Table} (h : (memory m).HoldsOnly P)
    (ht : Only P t.entries) : (memory (m.setTable t list)).HoldsOnly P := by
  intro l
  rw [Memory.table_setTable]
  split
  · exact ht
  · exact h l

theorem HoldsOnly.add (h : store.HoldsOnly P) (list : AccessList) (hsubnet : P subnet) :
    Tells P (HoldsOnly P) (store.add list subnet) := by
  cases store with
  | memory m =>
    simp only [ListStore.add]
    rcases m.add_cases list subnet with ⟨holder, -, heq⟩ | ⟨-, heq⟩
    · rw [heq]
      exact ⟨only_subnet.mpr hsubnet, h, only_nil⟩
    · rw [heq]
      refine ⟨only_of_nil rfl, h.setTable_memory ?_, only_nil⟩
      exact only_append.mpr ⟨h list, only_cons.mpr ⟨only_entry.mpr hsubnet, only_nil⟩⟩
  | database db =>
    refine tells_ofDatabase h (fun id db' hadd => ⟨only_of_nil rfl, ?_⟩) fun e he => ?_
    · obtain ⟨t, htable, -, -, -, -, rfl⟩ := Database.add_of_ok hadd
      refine h.setTable fun r hr s hs => ?_
      rcases RowTable.mem_place.mp hr with rfl | hr
      · rw [Row.holds_ofSubnet, decide_eq_true_iff] at hs
        exact hs ▸ hsubnet
      · exact h list t htable r hr s hs
    · rcases Database.add_refused he with ⟨holder, rfl⟩ | ⟨text, rfl⟩
      · exact only_subnet.mpr hsubnet
      · exact only_of_nil rfl

theorem HoldsOnly.remove (h : store.HoldsOnly P) (list : AccessList) (hsubnet : P subnet) :
    Tells P (HoldsOnly P) (store.remove list subnet) := by
  cases store with
  | memory m =>
    simp only [ListStore.remove]
    rcases m.remove_cases list subnet with ⟨-, heq⟩ | ⟨-, heq⟩
    · rw [heq]
      refine ⟨only_of_nil rfl, h.setTable_memory (only_list.mpr fun e he => ?_), only_nil⟩
      exact only_list.mp (h list) e (List.mem_filter.mp he).1
    · rw [heq]
      exact ⟨only_subnet.mpr hsubnet, h, only_nil⟩
  | database db =>
    refine tells_ofDatabase h (fun u db' hremove => ⟨only_of_nil rfl, ?_⟩) fun e he => ?_
    · obtain ⟨t, htable, rfl⟩ := Database.remove_of_ok hremove
      exact h.setTable fun r hr => h list t htable r (List.mem_filter.mp hr).1
    · obtain rfl := Database.remove_refused he
      exact only_subnet.mpr hsubnet

theorem HoldsOnly.contains (h : store.HoldsOnly P) (list : AccessList) (subnet : Subnet) :
    Tells P (HoldsOnly P) (store.contains list subnet) := by
  cases store with
  | memory m => exact ⟨only_of_nil rfl, h, only_nil⟩
  | database db =>
    refine tells_ofDatabase h (fun held db' hcontains => ⟨only_of_nil rfl, ?_⟩) fun e he => ?_
    · obtain ⟨t, -, hread⟩ := exists_of_bind hcontains
      obtain ⟨-, rfl⟩ := Prod.mk.inj (Except.ok.inj hread)
      exact h
    · exact absurd he Database.contains_ne_refused

/-- An enumeration shows what the rows hold. -/
theorem HoldsOnly.enumerate (h : store.HoldsOnly P) (list : AccessList) :
    Tells P (HoldsOnly P) (store.enumerate list) := by
  cases store with
  | memory m =>
    refine ⟨only_list.mpr fun e he => ?_, h, only_nil⟩
    exact only_list.mp (h list) e (List.mem_mergeSort.mp he)
  | database db =>
    refine tells_ofDatabase h (fun entries db' henumerate => ?_) fun e he => ?_
    · obtain ⟨rfl, t, htable, hrows⟩ := Database.enumerate_of_ok henumerate
      refine ⟨only_list.mpr fun e he => only_entry.mpr ?_, h⟩
      obtain ⟨r, hr, hentry⟩ := exists_item hrows e he
      exact h list t htable r hr e.subnet (Row.holds_of_entry hentry)
    · obtain ⟨text, rfl⟩ := Database.enumerate_refused he
      exact only_of_nil rfl

/-! ## Changes past the requests -/

/-- A row that is written past the store holds the subnet whose pair it has, if any. -/
theorem HoldsOnly.insertRaw {id : Option Int} {ip mask : Cell} {db' : Database}
    (h : (database db).HoldsOnly P)
    (hrow : ∀ s : Subnet, ip = .text s.ip.text → mask = .integer s.mask → P s)
    (hinsert : db.insertRaw? list id ip mask = some db') : (database db').HoldsOnly P := by
  unfold Database.insertRaw? at hinsert
  split at hinsert
  · next t' htable =>
    obtain rfl := Option.some.inj hinsert
    obtain ⟨t, ht, hrows⟩ := Option.bind_eq_some_iff.mp htable
    unfold RowTable.insertRaw? at hrows
    dsimp only at hrows
    split at hrows
    · cases hrows
    · obtain rfl := Option.some.inj hrows
      refine h.setTable fun r hr s hs => ?_
      rcases RowTable.mem_place.mp hr with rfl | hr
      · obtain ⟨hip, hmask⟩ := Row.holds_iff.mp hs
        exact hrow s hip hmask
      · exact h list t ht r hr s hs
  · cases hinsert

theorem HoldsOnly.dropTable (h : (database db).HoldsOnly P) (list : AccessList) :
    (database (db.setTable none list)).HoldsOnly P := by
  intro l t ht
  rw [Database.table?_setTable] at ht
  split at ht
  · cases ht
  · exact h l t ht

theorem HoldsOnly.close (h : (database db).HoldsOnly P) :
    (database { db with closed := true }).HoldsOnly P :=
  fun l t ht => h l t (by cases l <;> exact ht)

/-- A new connection finds the rows that were there, and new tables have none. -/
theorem HoldsOnly.reattach {db' : Database} (h : (database db).HoldsOnly P)
    (hreattach : db.reattach = .ok db') : (database db').HoldsOnly P := by
  unfold Database.reattach at hreattach
  split at hreattach
  · cases hreattach
  · obtain rfl := Except.ok.inj hreattach
    intro l t ht r hr
    have heq : (db.table? l).getD .empty = t := by cases l <;> exact Option.some.inj ht
    cases htable : db.table? l with
    | some t' =>
      rw [htable] at heq
      obtain rfl : t' = t := heq
      exact h l t' htable r hr
    | none =>
      rw [htable] at heq
      subst heq
      cases hr

/-- Empty lists hold nothing. -/
theorem HoldsOnly.of_fresh (h : store.Fresh) : store.HoldsOnly P := by
  rcases h with rfl | rfl
  · intro list
    cases list <;> exact only_nil
  · intro list t ht r hr
    cases list <;> cases ht <;> cases hr

end ListStore

/-! ## The site -/

/-- A log takes an entry, and may lose another. -/
theorem only_push {α : Type} [Mentions α] {P : Subnet → Prop} {r : Recent α} {a : α}
    (h : Only P r.items) (ha : Only P a) : Only P (r.push a).items := by
  refine only_append.mpr ⟨only_list.mpr fun b hb => only_list.mp h b ?_,
    only_cons.mpr ⟨ha, only_nil⟩⟩
  split at hb
  · exact List.mem_of_mem_drop hb
  · exact hb

namespace Site.HoldsOnly

variable {P : Subnet → Prop} {s : Site}

/-- A request to the lists changes nothing else at the site. -/
theorem tells_withLists {α : Type} [Mentions α]
    {answered : Except StoreError α × ListStore × List LogLine} (h : s.HoldsOnly P)
    (hlists : Tells P (ListStore.HoldsOnly P) answered) :
    Tells P (Site.HoldsOnly P)
      (answered.1, { s with stores := { s.stores with lists := answered.2.1 } }, answered.2.2) :=
  ⟨hlists.1, ⟨hlists.2.1, h.faults, h.sink⟩, hlists.2.2⟩

/-- Asked about subnets with the property, the site tells of such only. -/
theorem answer {request : Request} (h : s.HoldsOnly P) (hrequest : Only P request) :
    Tells P (Site.HoldsOnly P) (Site.host.answer request s) := by
  rcases s.host_answer_cases request with ⟨fault, hfault, -, heq⟩ | heq
  · rw [heq]
    exact ⟨only_list.mp h.faults fault hfault, h, only_nil⟩
  · rw [heq]
    cases request with
    | enumerate list => exact h.tells_withLists (h.lists.enumerate list)
    | contains list subnet => exact h.tells_withLists (h.lists.contains list subnet)
    | add list subnet => exact h.tells_withLists (h.lists.add list (only_subnet.mp hrequest))
    | remove list subnet => exact h.tells_withLists (h.lists.remove list (only_subnet.mp hrequest))
    | increment key => exact ⟨only_of_nil rfl, ⟨h.lists, h.faults, h.sink⟩, only_nil⟩
    | set key value => exact ⟨only_of_nil rfl, ⟨h.lists, h.faults, h.sink⟩, only_nil⟩
    | flush => exact ⟨only_of_nil rfl, ⟨h.lists, h.faults, h.sink⟩, only_nil⟩

/-- An event with such subnets leaves the sink with such only. -/
theorem hear {event : Event} (h : s.HoldsOnly P) (hevent : Only P event) :
    (Site.host.hear event s).1.HoldsOnly P ∧ Only P (Site.host.hear event s).2 := by
  simp only [Site.host]
  cases hsink : s.sink with
  | buffer b =>
    refine ⟨⟨h.lists, h.faults, fun b' hb' => ?_⟩, only_nil⟩
    obtain rfl := Sink.buffer.inj hb'
    exact only_push (h.sink b hsink) hevent
  | log =>
    refine ⟨⟨h.lists, h.faults, fun b hb => ?_⟩, only_cons.mpr ⟨hevent, only_nil⟩⟩
    cases hb
  | discard | failing | unready =>
    refine ⟨⟨h.lists, h.faults, fun b hb => ?_⟩, only_nil⟩
    cases hb

end Site.HoldsOnly

end LoginAdmission
