/-
  Replaying events: what the changes that they tell of make of empty lists.

  `Event.replayed` makes the entries of a list of the events alone. `ListStore.Replays` is the
  invariant: the tables hold what the changes that the stores made so far make of empty lists. A
  call that fails changes nothing, so nothing is assumed of faults, nor of how many numbers are
  left.

  Main statement: `Site.replays_run`, for any conversation. What is known of numbers is
  `Table.Ascending`, which the tables of both kinds of lists share.
-/
import Mathlib.Data.List.Basic
import LoginAdmission.Proofs.Lists.Standing

namespace LoginAdmission

open Storage Procedure

/-! ## Replaying events -/

namespace Event

/-- The list that an event tells a change of. -/
def list? : Event → Option AccessList
  | added list _ _ | removed list _ => some list
  | _ => none

/-- Whether an event tells a change of a list. -/
def isChange (event : Event) : Bool := event.list?.isSome

/-- Whether an event tells of an addition to the list. -/
def addsTo (list : AccessList) : Event → Bool
  | added l _ _ => l = list
  | _ => false

/-- The number of additions to a list that events tell of. -/
def additions (list : AccessList) (events : List Event) : Nat := events.countP (addsTo list)

/-- What an event makes of the entries of a list: an addition puts its pair there under the number,
a removal takes the pair out. -/
def replay (list : AccessList) (entries : List Entry) : Event → List Entry
  | added l subnet id => if l = list then entries ++ [⟨id, subnet⟩] else entries
  | removed l subnet => if l = list then entries.filter (·.subnet ≠ subnet) else entries
  | _ => entries

/-- The entries that events make of an empty list. -/
def replayed (list : AccessList) (events : List Event) : List Entry := events.foldl (replay list) []

section

variable (list : AccessList) (events : List Event)

theorem additions_snoc (event : Event) :
    additions list (events ++ [event]) =
      additions list events + (if event.addsTo list then 1 else 0) := by
  unfold additions
  rw [List.countP_append, List.countP_singleton]

theorem replayed_snoc (event : Event) :
    replayed list (events ++ [event]) = event.replay list (replayed list events) := by
  unfold replayed
  rw [List.foldl_append, List.foldl_cons, List.foldl_nil]

/-- Only the changes count in a replay. -/
theorem replayed_changes : replayed list (events.filter isChange) = replayed list events := by
  unfold replayed
  generalize ([] : List Entry) = entries
  induction events generalizing entries with
  | nil => rfl
  | cons event events ih => cases event <;> exact ih _

theorem additions_changes : additions list (events.filter isChange) = additions list events := by
  unfold additions
  rw [List.countP_filter]
  refine List.countP_congr fun event _ => ?_
  cases event <;> simp [addsTo, isChange, list?]

end

/-- A change of the other list. -/
theorem frame_of_list? {event : Event} {list : AccessList} (h : event.list? ≠ some list) :
    (∀ entries, event.replay list entries = entries) ∧ event.addsTo list = false := by
  cases event with
  | added l subnet id =>
    have hne : l ≠ list := fun heq => h (congrArg some heq)
    exact ⟨fun _ => if_neg hne, decide_eq_false hne⟩
  | removed l subnet =>
    have hne : l ≠ list := fun heq => h (congrArg some heq)
    exact ⟨fun _ => if_neg hne, rfl⟩
  | _ => exact ⟨fun _ => rfl, rfl⟩

end Event

/-- The change that a call made, as it is to be told. A call that fails changes nothing. -/
def Call.change? : Call → Option Event
  | ⟨.add list subnet, .ok id⟩ => some (.added list subnet id)
  | ⟨.remove list subnet, .ok _⟩ => some (.removed list subnet)
  | _ => none

theorem Call.change?_error (request : Request) (e : StoreError) :
    change? ⟨request, .error e⟩ = none := by
  cases request <;> rfl

/-! ## Tables -/

namespace Storage

/-- The table holds what the events make of an empty list, and its numbers ascend while they
last. -/
structure Table.Replays (t : Table) (list : AccessList) (events : List Event) : Prop where
  entries : t.entries = Event.replayed list events
  numbered : Event.additions list events < wordBound →
    t.lastId.toNat = Event.additions list events ∧ t.Ascending

namespace Table.Replays

variable {t : Table} {list : AccessList} {events : List Event} {subnet : Subnet}

theorem start (list : AccessList) : Table.empty.Replays list [] := ⟨rfl, fun _ => ⟨rfl, .start⟩⟩

theorem frame (h : t.Replays list events) {event : Event} (hevent : event.list? ≠ some list) :
    t.Replays list (events ++ [event]) := by
  obtain ⟨hreplay, hadds⟩ := Event.frame_of_list? hevent
  constructor
  case entries => rw [Event.replayed_snoc, hreplay, h.entries]
  case numbered =>
    rw [Event.additions_snoc, hadds]
    exact h.numbered

/-- The next pair. -/
theorem insert (h : t.Replays list events) (hfree : ¬ t.holds subnet = true) :
    (t.insert subnet).Replays list (events ++ [.added list subnet (t.lastId + 1)]) := by
  constructor
  case entries =>
    rw [Event.replayed_snoc, ← h.entries, Event.replay, if_pos rfl]
    rfl
  case numbered =>
    rw [Event.additions_snoc, Event.addsTo, decide_eq_true rfl, if_pos rfl]
    intro hroom
    obtain ⟨hlast, hascending⟩ := h.numbered (Nat.lt_of_succ_lt hroom)
    have hnext : (t.lastId + 1).toNat = t.lastId.toNat + 1 := by
      rw [UInt64.toNat_add, UInt64.toNat_one, hlast]
      exact Nat.mod_eq_of_lt hroom
    exact ⟨hnext.trans (congrArg (· + 1) hlast), hascending.insert hfree hnext⟩

theorem erase (h : t.Replays list events) (subnet : Subnet) :
    (t.erase subnet).Replays list (events ++ [.removed list subnet]) := by
  constructor
  case entries =>
    rw [Event.replayed_snoc, ← h.entries, Event.replay, if_pos rfl]
    rfl
  case numbered =>
    rw [Event.additions_snoc]
    exact fun hroom => ⟨(h.numbered hroom).1, (h.numbered hroom).2.erase subnet⟩

end Table.Replays

/-- The rows of a table are what the events make of an empty list, and their numbers ascend. Where
the table is missing, so do those that the events tell of. -/
def RowTable.Replays (list : AccessList) (events : List Event) : Option RowTable → Prop
  | some r => ∃ t : Table, r.Mirrors t ∧ t.entries = Event.replayed list events ∧ t.Ascending
  | none => (Event.replayed list events).Pairwise fun a b => a.id < b.id ∧ a.subnet ≠ b.subnet

namespace RowTable.Replays

variable {r : RowTable} {list : AccessList} {events : List Event} {subnet : Subnet}

theorem start (list : AccessList) : RowTable.Replays list [] (some .empty) :=
  ⟨.empty, ⟨rfl, rfl⟩, rfl, .start⟩

theorem ordered {r : Option RowTable} (h : RowTable.Replays list events r) :
    (Event.replayed list events).Pairwise fun a b => a.id < b.id ∧ a.subnet ≠ b.subnet := by
  cases r with
  | some r =>
    obtain ⟨t, -, hentries, hascending⟩ := h
    exact hentries ▸ hascending.ordered
  | none => exact h

theorem frame {r : Option RowTable} (h : RowTable.Replays list events r) {event : Event}
    (hevent : event.list? ≠ some list) : RowTable.Replays list (events ++ [event]) r := by
  obtain ⟨hreplay, -⟩ := Event.frame_of_list? hevent
  have hreplayed : Event.replayed list (events ++ [event]) = Event.replayed list events := by
    rw [Event.replayed_snoc, hreplay]
  cases r <;> simpa only [RowTable.Replays, hreplayed] using h

/-- The row under the next number, while a signed word has one. -/
theorem insert (h : RowTable.Replays list events (some r)) (hfree : ¬ r.holds subnet = true)
    (hroom : ¬ largestId < r.top + 1) :
    RowTable.Replays list (events ++ [.added list subnet (UInt64.ofNat (r.top + 1).toNat)])
      (some (r.insert (.ofSubnet (r.top + 1) subnet))) := by
  obtain ⟨t, hmirrors, hentries, hascending⟩ := h
  rw [hmirrors.holds] at hfree
  have htop := hmirrors.top
  have hnext : (t.lastId + 1).toNat = t.lastId.toNat + 1 := by
    have hwide := signedBound_lt_wordBound
    unfold largestId at hroom
    have hlt : t.lastId.toNat + 1 < wordBound := by omega
    rw [UInt64.toNat_add, UInt64.toNat_one]
    exact Nat.mod_eq_of_lt hlt
  have hid : UInt64.ofNat (r.top + 1).toNat = t.lastId + 1 := by
    have hnat : (r.top + 1).toNat = (t.lastId + 1).toNat := by omega
    rw [hnat, UInt64.ofNat_toNat]
  refine ⟨t.insert subnet, hmirrors.insert_above hascending.within hnext subnet, ?_,
    hascending.insert hfree hnext⟩
  rw [hid, Event.replayed_snoc, ← hentries, Event.replay, if_pos rfl]
  rfl

theorem erase (h : RowTable.Replays list events (some r)) (subnet : Subnet) :
    RowTable.Replays list (events ++ [.removed list subnet]) (some (r.erase subnet)) := by
  obtain ⟨t, hmirrors, hentries, hascending⟩ := h
  refine ⟨t.erase subnet, hmirrors.erase subnet, ?_, hascending.erase subnet⟩
  rw [Event.replayed_snoc, ← hentries, Event.replay, if_pos rfl]
  rfl

end RowTable.Replays

/-! ## Edits of a database -/

namespace Database

variable {db db' : Database} {list : AccessList} {subnet : Subnet}

theorem table?_setTable (db : Database) (t : Option RowTable) (list l : AccessList) :
    (db.setTable t list).table? l = if l = list then t else db.table? l := by
  cases list <;> cases l <;> rfl

/-- An addition needs both tables. -/
theorem tables_of_add {id : UInt64} (h : db.add list subnet = .ok (id, db')) :
    ∃ t allow deny, db.openTable list = .ok t ∧ db.openTable .allow = .ok allow ∧
      db.openTable .deny = .ok deny := by
  obtain ⟨inserted, hinsert, -⟩ := exists_of_bind h
  obtain ⟨t, hopen, hinsert⟩ := exists_of_bind hinsert
  obtain ⟨allow, hallow, hinsert⟩ := exists_of_bind hinsert
  obtain ⟨deny, hdeny, -⟩ := exists_of_bind hinsert
  exact ⟨t, allow, deny, hopen, hallow, hdeny⟩

/-- A pair that was added was not in the table, and there was a number left for it. -/
theorem add_of_ok {id : UInt64} (h : db.add list subnet = .ok (id, db')) :
    ∃ t, db.table? list = some t ∧ ¬ t.holds subnet = true ∧ ¬ RowTable.largestId < t.top + 1 ∧
      ¬ t.top + 1 < 0 ∧ id = UInt64.ofNat (t.top + 1).toNat ∧
      db' = db.setTable (some (t.insert (.ofSubnet (t.top + 1) subnet))) list := by
  obtain ⟨t, allow, deny, hopen, hallow, hdeny⟩ := tables_of_add h
  have hown : t.holds subnet = true → (allow.holds subnet || deny.holds subnet) = true := by
    intro hheld
    cases list with
    | allow =>
      obtain rfl := Except.ok.inj (hopen.symm.trans hallow)
      rw [hheld, Bool.true_or]
    | deny =>
      obtain rfl := Except.ok.inj (hopen.symm.trans hdeny)
      rw [hheld, Bool.or_true]
  refine ⟨t, table_of_openTable hopen, ?_⟩
  unfold add at h
  rw [insertUnlessHeld_eq hopen hallow hdeny] at h
  split at h
  · simp only [Bind.bind, Except.bind, holder_eq hallow hdeny] at h
    split at h <;> cases h
  · next hfree =>
    split at h
    · cases h
    · next hroom =>
      simp only [Bind.bind, Except.bind] at h
      split at h
      · cases h
      · next hsign =>
        cases h
        exact ⟨fun hheld => hfree (hown hheld), hroom, hsign, rfl, rfl⟩

theorem remove_of_ok {u : Unit} (h : db.remove list subnet = .ok (u, db')) :
    ∃ t, db.table? list = some t ∧ db' = db.setTable (some (t.erase subnet)) list := by
  obtain ⟨t, hopen, h⟩ := exists_of_bind h
  split at h
  · cases h
  · cases h
    exact ⟨t, table_of_openTable hopen, rfl⟩

/-- A new connection finds the tables as they are, if none is missing. -/
theorem reattach_of_whole (h : ∀ list, (db.table? list).isSome) (hclosed : db.closed = false) :
    db.reattach = .ok db := by
  obtain ⟨allow, deny, closed⟩ := db
  obtain ⟨a, rfl⟩ := Option.isSome_iff_exists.mp (h .allow)
  obtain ⟨d, rfl⟩ := Option.isSome_iff_exists.mp (h .deny)
  cases hclosed
  rfl

end Database

end Storage

/-! ## Both kinds of lists -/

/-- The lists hold what the events make of empty ones. A database may have lost a table, unless it
has to be whole. -/
def ListStore.Replays (whole : Prop) (events : List Event) : ListStore → Prop
  | memory m => ∀ list, (m.table list).Replays list events
  | database db => ∀ list, RowTable.Replays list events (db.table? list) ∧
    (whole → (db.table? list).isSome)

namespace ListStore.Replays

variable {whole whole' : Prop} {store : ListStore} {events : List Event}

theorem start (h : store.Fresh) : store.Replays whole [] := by
  rcases h with rfl | rfl
  · exact fun list => by cases list <;> exact Table.Replays.start _
  · exact fun list => by cases list <;> exact ⟨RowTable.Replays.start _, fun _ => rfl⟩

theorem mono (h : store.Replays whole events) (himp : whole' → whole) :
    store.Replays whole' events := by
  cases store with
  | memory m => exact h
  | database db => exact fun list => ⟨(h list).1, fun hwhole => (h list).2 (himp hwhole)⟩

/-- A change of one table in memory. -/
theorem setTable_memory {m : Memory} (h : ∀ l, (m.table l).Replays l events) {t : Table}
    {list : AccessList} {event : Event} (hevent : event.list? = some list)
    (ht : t.Replays list (events ++ [event])) :
    ∀ l, ((m.setTable t list).table l).Replays l (events ++ [event]) := by
  intro l
  rw [Memory.table_setTable]
  split
  · next hl => exact hl ▸ ht
  · next hl =>
    exact (h l).frame fun heq => hl (Option.some.inj (heq.symm.trans hevent))

/-- A change of one table in a database. -/
theorem setTable_database {db : Database} (h : (ListStore.database db).Replays whole events)
    {r : RowTable} {list : AccessList} {event : Event} (hevent : event.list? = some list)
    (hr : RowTable.Replays list (events ++ [event]) (some r)) :
    (ListStore.database (db.setTable (some r) list)).Replays whole (events ++ [event]) := by
  intro l
  rw [Database.table?_setTable]
  split
  · next hl => exact ⟨hl ▸ hr, fun _ => rfl⟩
  · next hl =>
    have hother : event.list? ≠ some l := fun heq => hl (Option.some.inj (heq.symm.trans hevent))
    exact ⟨(h l).1.frame hother, (h l).2⟩

/-- An addition, whatever comes of it. -/
theorem add (h : store.Replays whole events) (list : AccessList) (subnet : Subnet) :
    (store.add list subnet).2.1.Replays whole
      (events ++ (Call.change? ⟨.add list subnet, (store.add list subnet).1⟩).toList) := by
  cases store with
  | memory m =>
    simp only [ListStore.add]
    rcases m.add_cases list subnet with ⟨holder, -, heq⟩ | ⟨hfree, heq⟩
    · rw [heq]
      simpa [Call.change?] using h
    · rw [heq]
      exact setTable_memory h rfl ((h list).insert (hfree list))
  | database db =>
    simp only [ListStore.add]
    cases hadd : db.add list subnet with
    | error e => cases e <;> simpa [ofDatabase, Call.change?] using h
    | ok result =>
      obtain ⟨id, db'⟩ := result
      obtain ⟨t, htable, hfree, hroom, -, rfl, rfl⟩ := Database.add_of_ok hadd
      have hown := (h list).1
      rw [htable] at hown
      exact h.setTable_database rfl (hown.insert hfree hroom)

/-- A removal, whatever comes of it. -/
theorem remove (h : store.Replays whole events) (list : AccessList) (subnet : Subnet) :
    (store.remove list subnet).2.1.Replays whole
      (events ++ (Call.change? ⟨.remove list subnet, (store.remove list subnet).1⟩).toList) := by
  cases store with
  | memory m =>
    simp only [ListStore.remove]
    rcases m.remove_cases list subnet with ⟨-, heq⟩ | ⟨-, heq⟩
    · rw [heq]
      exact setTable_memory h rfl ((h list).erase subnet)
    · rw [heq]
      simpa [Call.change?] using h
  | database db =>
    simp only [ListStore.remove]
    cases hremove : db.remove list subnet with
    | error e => cases e <;> simpa [ofDatabase, Call.change?] using h
    | ok result =>
      obtain ⟨u, db'⟩ := result
      obtain ⟨t, htable, rfl⟩ := Database.remove_of_ok hremove
      have hown := (h list).1
      rw [htable] at hown
      exact h.setTable_database rfl (hown.erase subnet)

end ListStore.Replays

/-! ## Conversations -/

namespace Site

variable {whole : Prop} {s : Site} {events : List Event}

/-- One request, whether the stores answer it or a fault does. -/
theorem replays_answer (h : s.stores.lists.Replays whole events) (request : Request) :
    let r := Site.host.answer request s
    r.2.1.stores.lists.Replays whole (events ++ (Call.change? ⟨request, r.1⟩).toList) := by
  have hsame : s.stores.lists.Replays whole (events ++ []) := (List.append_nil events).symm ▸ h
  dsimp only
  rcases host_answer_cases request s with ⟨fault, -, -, heq⟩ | heq
  · rw [heq, Call.change?_error]
    exact hsame
  · rw [heq]
    cases request with
    | add list subnet => exact h.add list subnet
    | remove list subnet => exact h.remove list subnet
    | enumerate list =>
      show (s.stores.lists.enumerate list).2.1.Replays whole _
      rw [ListStore.enumerate_state]
      exact hsame
    | contains list subnet =>
      show (s.stores.lists.contains list subnet).2.1.Replays whole _
      rw [ListStore.contains_state]
      exact hsame
    | increment | set | flush => exact hsame

/-- A whole conversation. -/
theorem replays_run {α : Type} (p : Procedure α) (h : s.stores.lists.Replays whole events) :
    (p.run Site.host s).state.stores.lists.Replays whole
      (events ++ (p.run Site.host s).calls.filterMap Call.change?) := by
  induction p generalizing s events with
  | done a => simpa [Procedure.run] using h
  | ask request next ih =>
    have hrest := ih (Site.host.answer request s).1 (replays_answer h request)
    rw [List.filterMap_eq_flatMap_toList, List.append_assoc] at hrest
    simp only [Procedure.run]
    rw [List.filterMap_eq_flatMap_toList, List.flatMap_cons]
    exact hrest
  | note line next ih => exact ih h
  | announce event next ih =>
    have hheard : (Site.host.hear event s).1.stores.lists.Replays whole events := h
    exact ih hheard

end Site

end LoginAdmission
