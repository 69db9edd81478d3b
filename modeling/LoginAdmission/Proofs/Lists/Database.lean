/-
  The lists in a database answer as the lists in memory do.

  `Database.Mirrors` relates a database to lists in memory: each table holds the same entries,
  written as rows, and has given out the same numbers. A request keeps the two related and gets the
  same answer from both, as long as a signed word can number the rows.

  Main statement: `database_refines_memory`, for runs that begin empty. An addition that the
  database refuses names the same list, because by `Memory.Agrees` only one list can hold the pair.
-/
import LoginAdmission.Proofs.Address.Dotted
import LoginAdmission.Proofs.Lists.Memory

namespace LoginAdmission

namespace Storage

/-! ## Rows -/

/-- The row that an entry is written as. -/
def Row.ofEntry (e : Entry) : Row := .ofSubnet e.id.toNat e.subnet

namespace Row

/-- A row is told by the subnet it was written for. -/
theorem holds_ofSubnet (id : Int) (s subnet : Subnet) :
    (ofSubnet id s).holds subnet = decide (s = subnet) := by
  obtain ⟨ip, mask, hpos, hle⟩ := s
  obtain ⟨ip', mask', hpos', hle'⟩ := subnet
  unfold holds samePair ofSubnet
  rw [← Bool.decide_and]
  apply decide_eq_decide.mpr
  constructor
  · rintro ⟨hip, hmask⟩
    obtain rfl := Address.text_injective (Cell.text.inj hip)
    obtain rfl := Int.ofNat.inj (Cell.integer.inj hmask)
    rfl
  · rintro heq
    cases heq
    exact ⟨rfl, rfl⟩

/-- The row of an entry is read as that entry. -/
theorem entry_ofEntry (list : AccessList) (e : Entry) : (ofEntry e).entry list = .ok e := by
  have hpos := e.subnet.mask_pos
  have hle := e.subnet.mask_le
  have hmask : ¬ ((e.subnet.mask : Int) < 0 ∨ 255 < (e.subnet.mask : Int)) := by omega
  have hid : ¬ ((e.id.toNat : Int) < 0) := by omega
  unfold entry ofEntry ofSubnet
  simp only [ipText, maskNumber, Bind.bind, Except.bind, if_neg hmask, if_neg hid,
    Int.toNat_natCast, Subnet.make_text, UInt64.ofNat_toNat]
  rfl

theorem mapM_entry (list : AccessList) (entries : List Entry) :
    (entries.map ofEntry).mapM (entry list) = .ok entries := by
  induction entries with
  | nil => rfl
  | cons e entries ih =>
    rw [List.map_cons, List.mapM_cons, entry_ofEntry, ih]
    rfl

end Row

/-! ## One table -/

namespace RowTable

/-- A table of rows holds what a table in memory holds. -/
structure Mirrors (r : RowTable) (t : Table) : Prop where
  rows : r.rows = t.entries.map .ofEntry
  top : r.top = t.lastId.toNat

/-- A row above all others goes to the end. -/
theorem place_above {r : Row} {rows : List Row} (h : ∀ s ∈ rows, s.id ≤ r.id) :
    place r rows = rows ++ [r] := by
  induction rows with
  | nil => rfl
  | cons s rows ih =>
    have hs : ¬ r.id < s.id := Int.not_lt.mpr (h s List.mem_cons_self)
    rw [place, if_neg hs, ih fun s' hs' => h s' (List.mem_cons_of_mem s hs'), List.cons_append]

namespace Mirrors

variable {r : RowTable} {t : Table}

theorem holds (h : r.Mirrors t) (subnet : Subnet) : r.holds subnet = t.holds subnet := by
  unfold RowTable.holds Table.holds
  rw [h.rows, List.any_map]
  exact congrArg t.entries.any (funext fun e => Row.holds_ofSubnet _ e.subnet subnet)

theorem erase (h : r.Mirrors t) (subnet : Subnet) : (r.erase subnet).Mirrors (t.erase subnet) where
  rows := by
    unfold RowTable.erase Table.erase
    rw [h.rows, List.filter_map]
    refine congrArg (List.map Row.ofEntry) (List.filter_congr fun e _ => ?_)
    rw [Function.comp, Row.ofEntry, Row.holds_ofSubnet, decide_not]
  top := h.top

/-- The next row goes behind the others, as the next entry does, if its number is above theirs. -/
theorem insert_above (h : r.Mirrors t) (hwithin : ∀ e ∈ t.entries, e.id ≤ t.lastId)
    (hnext : (t.lastId + 1).toNat = t.lastId.toNat + 1) (subnet : Subnet) :
    (r.insert (.ofSubnet (r.top + 1) subnet)).Mirrors (t.insert subnet) := by
  have htop := h.top
  have hid : r.top + 1 = ((t.lastId + 1).toNat : Int) := by omega
  constructor
  case rows =>
    unfold RowTable.insert Table.insert
    rw [place_above, h.rows, List.map_append, hid]
    · rfl
    · intro s hs
      rw [h.rows] at hs
      obtain ⟨e, he, rfl⟩ := List.mem_map.mp hs
      have hle := UInt64.le_iff_toNat_le.mp (hwithin e he)
      show (e.id.toNat : Int) ≤ r.top + 1
      omega
  case top =>
    show max r.top (r.top + 1) = ((t.lastId + 1).toNat : Int)
    omega

/-- The next row, while the table keeps its numbers. -/
theorem insert {list : AccessList} {calls : List Call} (h : r.Mirrors t) (ht : t.Keeps list calls)
    (subnet : Subnet) (hroom : additions list calls + 1 < wordBound) :
    (r.insert (.ofSubnet (r.top + 1) subnet)).Mirrors (t.insert subnet) := by
  have hlast := ht.counted
  exact h.insert_above ht.within (by rw [ht.next hroom, hlast]) subnet

end Mirrors

end RowTable

/-! ## Both tables -/

namespace Database

/-- A database holds what the lists in memory hold, and can be asked. -/
structure Mirrors (db : Database) (m : Memory) : Prop where
  tables : ∀ list, ∃ r, db.openTable list = .ok r ∧ r.Mirrors (m.table list)

theorem openTable_setTable_self {db : Database} (h : db.closed = false) (r : RowTable)
    (list : AccessList) : (db.setTable (some r) list).openTable list = .ok r := by
  cases list <;> simp [openTable, setTable, table?, h]

theorem openTable_setTable_opposite (db : Database) (r : Option RowTable) (list : AccessList) :
    (db.setTable r list).openTable list.opposite = db.openTable list.opposite := by
  cases list <;> rfl

theorem closed_of_openTable {db : Database} {list : AccessList} {r : RowTable}
    (h : db.openTable list = .ok r) : db.closed = false := by
  unfold openTable at h
  cases hclosed : db.closed with
  | false => rfl
  | true =>
    rw [hclosed] at h
    cases h

/-- An insertion, once the tables are open. -/
theorem insertUnlessHeld_eq {db : Database} {list : AccessList} {t allow deny : RowTable}
    (hopen : db.openTable list = .ok t) (hallow : db.openTable .allow = .ok allow)
    (hdeny : db.openTable .deny = .ok deny) (subnet : Subnet) :
    db.insertUnlessHeld list subnet =
      if allow.holds subnet || deny.holds subnet then .ok (none, db)
      else if RowTable.largestId < t.top + 1 then .error (.outage .full)
      else .ok (some (t.top + 1),
        db.setTable (some (t.insert (.ofSubnet (t.top + 1) subnet))) list) := by
  unfold insertUnlessHeld
  rw [hopen, hallow, hdeny]
  rfl

/-- The holder of a pair, once the tables are open. -/
theorem holder_eq {db : Database} {allow deny : RowTable}
    (hallow : db.openTable .allow = .ok allow) (hdeny : db.openTable .deny = .ok deny)
    (subnet : Subnet) :
    db.holder? subnet = .ok (if allow.holds subnet then some .allow
      else if deny.holds subnet then some .deny else none) := by
  unfold holder?
  rw [hallow, hdeny]
  simp only [Bind.bind, Except.bind]
  split
  · rfl
  · split <;> rfl

namespace Mirrors

variable {db : Database} {m : Memory} {calls : List Call}

theorem start : Database.empty.Mirrors .empty where
  tables list := ⟨.empty, by cases list <;> rfl, by cases list <;> exact ⟨rfl, rfl⟩⟩

/-- Changes the table of one list in both. -/
theorem setTable (h : db.Mirrors m) {r : RowTable} {t : Table} (hr : r.Mirrors t)
    (list : AccessList) : (db.setTable (some r) list).Mirrors (m.setTable t list) where
  tables l := by
    obtain ⟨r', hopen, hmirrors⟩ := h.tables list.opposite
    obtain ⟨_, hown, -⟩ := h.tables list
    have hself := openTable_setTable_self (closed_of_openTable hown) r list
    have hother := (openTable_setTable_opposite db (some r) list).trans hopen
    cases list <;> cases l
    · exact ⟨r, hself, hr⟩
    · exact ⟨r', hother, hmirrors⟩
    · exact ⟨r', hother, hmirrors⟩
    · exact ⟨r, hself, hr⟩

/-- A pair that a list holds is refused in the name of that list. -/
theorem add_of_held (h : db.Mirrors m) (hm : m.Agrees calls) (list : AccessList)
    {holder : AccessList} {subnet : Subnet} (hheld : (m.table holder).holds subnet = true) :
    db.add list subnet = .error (.refused (.conflict holder subnet)) := by
  obtain ⟨t, hopen, ht⟩ := h.tables list
  obtain ⟨allow, hallow, hallowed⟩ := h.tables .allow
  obtain ⟨deny, hdeny, hdenied⟩ := h.tables .deny
  have hother := hm.exclusive holder subnet hheld
  have hholder : (if allow.holds subnet then some AccessList.allow
      else if deny.holds subnet then some .deny else none) = some holder := by
    rw [hallowed.holds, hdenied.holds]
    cases holder with
    | allow => rw [if_pos hheld]
    | deny =>
      have hallowfree : ¬ (m.table .allow).holds subnet = true := hother
      rw [if_neg hallowfree, if_pos hheld]
  have hrefused : (allow.holds subnet || deny.holds subnet) = true := by
    rw [hallowed.holds, hdenied.holds, Bool.or_eq_true]
    cases holder with
    | allow => exact Or.inl hheld
    | deny => exact Or.inr hheld
  unfold add
  rw [insertUnlessHeld_eq hopen hallow hdeny, if_pos hrefused]
  simp only [Bind.bind, Except.bind]
  rw [holder_eq hallow hdeny, hholder]
  rfl

/-- A pair that no list holds gets the next number, while a signed word has one. -/
theorem add_of_free (h : db.Mirrors m) (hm : m.Agrees calls) (list : AccessList) {subnet : Subnet}
    (hfree : ∀ l, ¬ (m.table l).holds subnet = true)
    (hroom : additions list calls + 1 < signedBound) :
    ∃ db', db.add list subnet = .ok ((m.table list).lastId + 1, db') ∧
      db'.Mirrors (m.setTable ((m.table list).insert subnet) list) := by
  obtain ⟨t, hopen, ht⟩ := h.tables list
  obtain ⟨allow, hallow, hallowed⟩ := h.tables .allow
  obtain ⟨deny, hdeny, hdenied⟩ := h.tables .deny
  have hkeeps := hm.tables list
  have hwide := Nat.lt_trans hroom signedBound_lt_wordBound
  have hnext := hkeeps.next hwide
  have hlast := hkeeps.counted
  have htop := ht.top
  have hid : t.top + 1 = (((m.table list).lastId + 1).toNat : Int) := by omega
  have hlargest : ¬ RowTable.largestId < t.top + 1 := by
    unfold RowTable.largestId
    omega
  have hpositive : ¬ t.top + 1 < 0 := by omega
  have hunheld : ¬ (allow.holds subnet || deny.holds subnet) = true := by
    rw [hallowed.holds, hdenied.holds, Bool.or_eq_true]
    exact fun hheld => hheld.elim (hfree .allow) (hfree .deny)
  refine ⟨_, ?_, h.setTable (ht.insert hkeeps subnet hwide) list⟩
  unfold add
  rw [insertUnlessHeld_eq hopen hallow hdeny, if_neg hunheld, if_neg hlargest]
  simp only [Bind.bind, Except.bind]
  rw [if_neg hpositive, hid, Int.toNat_natCast, UInt64.ofNat_toNat]
  rfl

/-- A pair that the list holds is taken out. -/
theorem remove_of_held (h : db.Mirrors m) {list : AccessList} {subnet : Subnet}
    (hheld : (m.table list).holds subnet = true) :
    ∃ db', db.remove list subnet = .ok ((), db') ∧
      db'.Mirrors (m.setTable ((m.table list).erase subnet) list) := by
  obtain ⟨t, hopen, ht⟩ := h.tables list
  rw [← ht.holds] at hheld
  refine ⟨_, ?_, h.setTable (ht.erase subnet) list⟩
  unfold remove
  rw [hopen]
  simp only [Bind.bind, Except.bind, hheld]
  rfl

/-- A pair that the list does not hold cannot be taken out. -/
theorem remove_of_free (h : db.Mirrors m) {list : AccessList} {subnet : Subnet}
    (hfree : ¬ (m.table list).holds subnet = true) :
    db.remove list subnet = .error (.refused (.notFound list subnet)) := by
  obtain ⟨t, hopen, ht⟩ := h.tables list
  rw [← ht.holds, Bool.not_eq_true] at hfree
  unfold remove
  rw [hopen]
  simp only [Bind.bind, Except.bind, hfree]
  rfl

theorem contains_eq (h : db.Mirrors m) (list : AccessList) (subnet : Subnet) :
    db.contains list subnet = .ok (m.contains list subnet, db) := by
  obtain ⟨t, hopen, ht⟩ := h.tables list
  unfold contains Memory.contains
  rw [hopen, ← ht.holds]
  rfl

theorem enumerate_eq (h : db.Mirrors m) (hm : m.Agrees calls) (list : AccessList) :
    db.enumerate list = .ok (m.enumerate list, db) := by
  obtain ⟨t, hopen, ht⟩ := h.tables list
  unfold enumerate
  rw [hopen, hm.enumerate_eq]
  simp only [Bind.bind, Except.bind]
  rw [ht.rows, Row.mapM_entry]
  rfl

/-- Any request, while a signed word can number the rows. -/
theorem ask (h : db.Mirrors m) (hm : m.Agrees calls) (r : ListRequest)
    (hroom : ∀ list, additions list (calls ++ [(ListStore.memory m).call r]) < signedBound) :
    ∃ db', (ListStore.database db).ask r = (((ListStore.memory m).ask r).1, .database db') ∧
      db'.Mirrors (m.after r) := by
  cases r with
  | add list subnet =>
    rcases m.add_cases list subnet with ⟨holder, hheld, heq⟩ | ⟨hfree, heq⟩
    · refine ⟨db, ?_, ?_⟩
      · simp only [ListStore.ask, ListStore.add, h.add_of_held hm list hheld, heq,
          ListStore.ofDatabase, DatabaseError.toStoreError]
      · rw [Memory.after, heq]
        exact h
    · have hcall := hroom list
      rw [ListStore.call, ListStore.ask, ListStore.add, heq] at hcall
      rw [additions_snoc, Call.addsTo, decide_eq_true rfl] at hcall
      obtain ⟨db', hadd, hmirrors⟩ := h.add_of_free hm list hfree hcall
      refine ⟨db', ?_, ?_⟩
      · simp only [ListStore.ask, ListStore.add, hadd, heq, ListStore.ofDatabase]
      · rw [Memory.after, heq]
        exact hmirrors
  | remove list subnet =>
    rcases m.remove_cases list subnet with ⟨hheld, heq⟩ | ⟨hfree, heq⟩
    · obtain ⟨db', hremove, hmirrors⟩ := h.remove_of_held hheld
      refine ⟨db', ?_, ?_⟩
      · simp only [ListStore.ask, ListStore.remove, hremove, heq, ListStore.ofDatabase]
      · rw [Memory.after, heq]
        exact hmirrors
    · refine ⟨db, ?_, ?_⟩
      · simp only [ListStore.ask, ListStore.remove, h.remove_of_free hfree, heq,
          ListStore.ofDatabase, DatabaseError.toStoreError]
      · rw [Memory.after, heq]
        exact h
  | contains list subnet =>
    refine ⟨db, ?_, h⟩
    simp only [ListStore.ask, ListStore.contains, h.contains_eq, ListStore.ofDatabase]
  | enumerate list =>
    refine ⟨db, ?_, h⟩
    simp only [ListStore.ask, ListStore.enumerate, h.enumerate_eq hm, ListStore.ofDatabase]

/-- Any run, while a signed word can number the rows. -/
theorem run (h : db.Mirrors m) (hm : m.Agrees calls) (asked : List ListRequest)
    (hroom : ∀ list, additions list (calls ++ (ListStore.memory m).calls asked) < signedBound) :
    (ListStore.database db).calls asked = (ListStore.memory m).calls asked := by
  induction asked generalizing db m calls with
  | nil => rfl
  | cons r asked ih =>
    rw [Memory.append_calls_cons] at hroom
    have hstep : ∀ list, additions list (calls ++ [(ListStore.memory m).call r]) < signedBound :=
      fun list => Nat.lt_of_le_of_lt (additions_le_append ..) (hroom list)
    obtain ⟨db', hask, hmirrors⟩ := h.ask hm r hstep
    have hagrees := hm.ask r fun list => Nat.lt_trans (hstep list) signedBound_lt_wordBound
    rw [ListStore.calls, ListStore.calls, Memory.ask_state, ListStore.call, ListStore.call, hask,
      ih hmirrors hagrees hroom]

end Mirrors

end Database

end Storage

/-- The lists in memory find no fault in what they hold. -/
theorem memory_not_corrupt (m : Storage.Memory) (asked : List ListRequest) :
    ∀ c ∈ (ListStore.memory m).calls asked, ∀ text, c.answer ≠ .error (.corrupt text) := by
  induction asked generalizing m with
  | nil => nofun
  | cons r asked ih =>
    intro c hc text
    rw [ListStore.calls, Storage.Memory.ask_state] at hc
    rcases List.mem_cons.mp hc with rfl | hc
    · cases r with
      | add list subnet =>
        show (m.add list subnet).1 ≠ _
        rcases m.add_cases list subnet with ⟨_, -, heq⟩ | ⟨-, heq⟩ <;>
          rw [heq] <;> intro h <;> cases h
      | remove list subnet =>
        show (m.remove list subnet).1 ≠ _
        rcases m.remove_cases list subnet with ⟨-, heq⟩ | ⟨-, heq⟩ <;>
          rw [heq] <;> intro h <;> cases h
      | contains list subnet | enumerate list =>
        intro h
        cases h
    · exact ih _ c hc text

/-- Lists in a database answer any calls exactly as lists in memory do, if both begin empty, and
never find a row that is no entry. -/
theorem database_refines_memory (asked : List ListRequest)
    (hroom : ∀ list, additions list ((ListStore.memory .empty).calls asked) < signedBound) :
    (ListStore.database .empty).calls asked = (ListStore.memory .empty).calls asked ∧
      ∀ c ∈ (ListStore.database .empty).calls asked, ∀ text,
        c.answer ≠ .error (.corrupt text) := by
  have hcalls := Storage.Database.Mirrors.start.run Storage.Memory.Agrees.start asked hroom
  rw [hcalls]
  exact ⟨rfl, memory_not_corrupt .empty asked⟩

/-- A pair is refused by both kinds of lists in the name of its holder, and is added again later. -/
theorem database_refines_memory_added_again :
    let pair : Subnet := ⟨⟨167772160#32⟩, 8, by decide, by decide⟩
    let asked : List ListRequest :=
      [.add .deny pair, .add .allow pair, .remove .deny pair, .remove .deny pair, .add .deny pair,
        .contains .allow pair, .enumerate .deny]
    (∀ list, additions list ((ListStore.memory .empty).calls asked) < signedBound) ∧
      (ListStore.database .empty).calls asked = (ListStore.memory .empty).calls asked ∧
      ∀ c ∈ (ListStore.database .empty).calls asked, ∀ text,
        c.answer ≠ .error (.corrupt text) := by
  intro pair asked
  have hroom : ∀ list, additions list ((ListStore.memory .empty).calls asked) < signedBound :=
    fun list => Nat.lt_of_le_of_lt (ListStore.additions_calls_le ..) (by decide)
  exact ⟨hroom, database_refines_memory asked hroom⟩

end LoginAdmission
