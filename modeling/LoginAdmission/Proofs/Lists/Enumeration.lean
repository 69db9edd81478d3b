/-
  Enumerations: what the lists show, whatever they hold.

  Nothing is assumed of how the lists came about. A database may hold rows that were written past
  the store; a list answers when all its rows can be read. Coverage is told by numbers.

  Main statements: `ListStore.grows_add` and `ListStore.grows_remove`. An addition makes its list
  show more and the other one the same, a removal the other way round, also where the edit is
  refused.
-/
import LoginAdmission.Proofs.Address.Blocks
import LoginAdmission.Proofs.Events.Replay

namespace LoginAdmission

open Storage

/-! ## What the lists show -/

namespace ListStore

/-- The list answers with these entries. -/
def Shows (store : ListStore) (list : AccessList) (entries : List Entry) : Prop :=
  (store.enumerate list).1 = .ok entries

/-- Both lists can be asked for their entries. -/
def Answers (store : ListStore) : Prop := ∀ list, ∃ entries, store.Shows list entries

/-- The list answers, and the address is in the block of one of its entries. -/
def Covers (store : ListStore) (list : AccessList) (address : Address) : Prop :=
  ∃ entries, store.Shows list entries ∧ ∃ e ∈ entries,
    address.number / 2 ^ (32 - e.subnet.mask) = e.subnet.ip.number / 2 ^ (32 - e.subnet.mask)

/-- Both stores answer. The second shows all entries that the first shows, and on the other list no
more than those. -/
def Grows (list : AccessList) (store store' : ListStore) : Prop :=
  ∀ l, ∃ entries entries', store.Shows l entries ∧ store'.Shows l entries' ∧ entries ⊆ entries' ∧
    (l ≠ list → entries' = entries)

variable {store store' : ListStore} {list l : AccessList} {entries entries' : List Entry}
  {address : Address}

theorem Shows.unique (h : store.Shows list entries) (h' : store.Shows list entries') :
    entries' = entries := Except.ok.inj (h'.symm.trans h)

/-- An enumeration covers an address just when the list does. -/
theorem Shows.covers_iff (h : store.Shows list entries) :
    Entry.covers address entries = true ↔ store.Covers list address := by
  simp only [Entry.covers_iff, Subnet.contains_iff]
  exact ⟨fun he => ⟨entries, h, he⟩, fun ⟨_, h', he⟩ => h.unique h' ▸ he⟩

namespace Grows

theorem refl (h : store.Answers) : Grows list store store := by
  intro l
  obtain ⟨entries, hentries⟩ := h l
  exact ⟨entries, entries, hentries, hentries, List.Subset.refl _, fun _ => rfl⟩

theorem answers (h : Grows list store store') : store.Answers ∧ store'.Answers :=
  ⟨fun l => have ⟨entries, _, hentries, _⟩ := h l; ⟨entries, hentries⟩,
    fun l => have ⟨_, entries', _, hentries', _⟩ := h l; ⟨entries', hentries'⟩⟩

/-- The second store covers what the first covers. -/
theorem covers (h : Grows list store store') (hcovers : store.Covers l address) :
    store'.Covers l address := by
  obtain ⟨entries, entries', hshows, hshows', hsub, -⟩ := h l
  obtain ⟨_, hentries, e, he, hblock⟩ := hcovers
  rw [hshows.unique hentries] at he
  exact ⟨entries', hshows', e, hsub he, hblock⟩

/-- On the other list it covers nothing else. -/
theorem covers_iff (h : Grows list store store') (hl : l ≠ list) :
    store'.Covers l address ↔ store.Covers l address := by
  obtain ⟨entries, entries', hshows, hshows', -, hsame⟩ := h l
  rw [← hshows.covers_iff, ← hshows'.covers_iff, hsame hl]

end Grows

/-! ## Edits in memory -/

theorem shows_memory (m : Memory) (list : AccessList) :
    (memory m).Shows list (m.enumerate list) := rfl

/-- Tables in memory that agree on the other list, the second with more entries. -/
theorem grows_memory {m m' : Memory} (hother : ∀ l, l ≠ list → m'.table l = m.table l)
    (hown : (m.table list).entries ⊆ (m'.table list).entries) :
    Grows list (memory m) (memory m') := by
  intro l
  refine ⟨_, _, shows_memory m l, shows_memory m' l, ?_, fun hl => ?_⟩
  · intro e he
    rw [Memory.enumerate, List.mem_mergeSort] at he ⊢
    by_cases hl : l = list
    · subst hl
      exact hown he
    · rwa [hother l hl]
  · rw [Memory.enumerate, hother l hl, Memory.enumerate]

/-! ## Edits of a database -/

theorem shows_database {db : Database} :
    (database db).Shows list entries ↔
      ∃ t, db.openTable list = .ok t ∧ t.rows.mapM (Row.entry list) = .ok entries := by
  simp only [Shows, enumerate, Database.enumerate]
  cases db.openTable list with
  | error e => cases e <;> simp [Bind.bind, Except.bind, ofDatabase]
  | ok t =>
    simp only [Bind.bind, Except.bind, Except.ok.injEq, exists_eq_left']
    cases t.rows.mapM (Row.entry list) <;>
      simp [ofDatabase, throw, throwThe, MonadExceptOf.throw, pure, Except.pure]

/-- A database answers when its tables are open and every row can be read. -/
theorem answers_database {db : Database} :
    (database db).Answers ↔
      ∀ l, ∃ t, db.openTable l = .ok t ∧ ∀ r ∈ t.rows, ∃ e, r.entry l = .ok e := by
  refine forall_congr' fun l => ?_
  simp only [shows_database, ← exists_mapM_iff]
  constructor
  · rintro ⟨entries, t, hopen, hread⟩
    exact ⟨t, hopen, entries, hread⟩
  · rintro ⟨t, hopen, entries, hread⟩
    exact ⟨entries, t, hopen, hread⟩

/-- Tables of two databases that agree on the other list, the second with more rows, all of which
can be read. -/
theorem grows_database {db db' : Database} (h : (database db').Answers)
    (hother : ∀ l, l ≠ list → db'.openTable l = db.openTable l)
    (hown : ∀ t', db'.openTable list = .ok t' → ∃ t, db.openTable list = .ok t ∧
      t.rows ⊆ t'.rows) : Grows list (database db) (database db') := by
  intro l
  obtain ⟨entries', hentries'⟩ := h l
  by_cases hl : l = list
  · subst hl
    obtain ⟨t', hopen', hread'⟩ := shows_database.mp hentries'
    obtain ⟨t, hopen, hsub⟩ := hown t' hopen'
    have hrows := exists_mapM_iff.mp ⟨entries', hread'⟩
    obtain ⟨entries, hread⟩ := exists_mapM_iff.mpr fun r hr => hrows r (hsub hr)
    exact ⟨entries, entries', shows_database.mpr ⟨t, hopen, hread⟩, hentries',
      read_subset hread hread' hsub, fun hne => absurd rfl hne⟩
  · refine ⟨entries', entries', ?_, hentries', List.Subset.refl _, fun _ => rfl⟩
    rw [shows_database, ← hother l hl]
    exact shows_database.mp hentries'

/-! ## Edits -/

/-- An addition, whatever comes of it, makes its list show more. -/
theorem grows_add (h : store.Answers) (list : AccessList) (subnet : Subnet) :
    Grows list store (store.add list subnet).2.1 := by
  cases store with
  | memory m =>
    simp only [add]
    rcases m.add_cases list subnet with ⟨holder, -, heq⟩ | ⟨-, heq⟩
    · rw [heq]
      exact .refl h
    · rw [heq]
      refine grows_memory (fun l hl => ?_) ?_
      · rw [Memory.table_setTable, if_neg hl]
      · rw [Memory.table_setTable, if_pos rfl]
        exact List.subset_append_left _ _
  | database db =>
    simp only [add]
    cases hadd : db.add list subnet with
    | error e => cases e <;> exact .refl h
    | ok result =>
      obtain ⟨id, db'⟩ := result
      obtain ⟨t, htable, -, hroom, hsign, -, rfl⟩ := Database.add_of_ok hadd
      obtain ⟨t', hopen, hrows⟩ := answers_database.mp h list
      obtain rfl : t = t' :=
        Option.some.inj (htable.symm.trans (Database.table_of_openTable hopen))
      have hclosed := Database.closed_of_openTable hopen
      have hadded : ∀ r ∈ (t.insert (.ofSubnet (t.top + 1) subnet)).rows,
          ∃ e, r.entry list = .ok e := by
        intro r hr
        rcases RowTable.mem_place.mp hr with rfl | hr
        · obtain ⟨e, he⟩ := Row.exists_ofEntry hsign hroom subnet
          exact ⟨e, he ▸ Row.entry_ofEntry list e⟩
        · exact hrows r hr
      refine grows_database (answers_database.mpr fun l => ?_) (fun l hl => ?_) fun t' ht' => ?_
      · rw [Database.openTable_setTable hclosed]
        split
        · next hl => exact ⟨_, rfl, hl ▸ hadded⟩
        · exact answers_database.mp h l
      · rw [Database.openTable_setTable hclosed, if_neg hl]
      · rw [Database.openTable_setTable hclosed, if_pos rfl] at ht'
        obtain rfl := Except.ok.inj ht'
        exact ⟨t, hopen, fun r hr => RowTable.mem_place.mpr (.inr hr)⟩

/-- A removal, whatever comes of it, makes its list show less. -/
theorem grows_remove (h : store.Answers) (list : AccessList) (subnet : Subnet) :
    Grows list (store.remove list subnet).2.1 store := by
  cases store with
  | memory m =>
    simp only [remove]
    rcases m.remove_cases list subnet with ⟨-, heq⟩ | ⟨-, heq⟩
    · rw [heq]
      refine grows_memory (fun l hl => ?_) ?_
      · rw [Memory.table_setTable, if_neg hl]
      · rw [Memory.table_setTable, if_pos rfl]
        exact List.filter_sublist.subset
    · rw [heq]
      exact .refl h
  | database db =>
    simp only [remove]
    cases hremove : db.remove list subnet with
    | error e => cases e <;> exact .refl h
    | ok result =>
      obtain ⟨u, db'⟩ := result
      obtain ⟨t, htable, rfl⟩ := Database.remove_of_ok hremove
      obtain ⟨t', hopen, -⟩ := answers_database.mp h list
      obtain rfl : t = t' :=
        Option.some.inj (htable.symm.trans (Database.table_of_openTable hopen))
      have hclosed := Database.closed_of_openTable hopen
      refine grows_database h (fun l hl => ?_) fun t' ht' => ⟨t.erase subnet, ?_, ?_⟩
      · rw [Database.openTable_setTable hclosed, if_neg hl]
      · rw [Database.openTable_setTable hclosed, if_pos rfl]
      · obtain rfl := Except.ok.inj (hopen.symm.trans ht')
        exact List.filter_sublist.subset

end ListStore

end LoginAdmission
