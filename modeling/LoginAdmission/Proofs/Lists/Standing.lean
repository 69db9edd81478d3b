/-
  What the lists of a session hold: the pairs that stand on them by the calls.

  `ListStore.Holds` says of either kind of lists that each answers an enumeration with the pairs of
  a given collection. No numbers are followed here, so nothing is assumed of how many are left: an
  addition for which a database has no number is refused and changes nothing.

  Main statements: `ListStore.Holds.ask` (a request keeps the lists to the pairs that stand by the
  calls) and `Session.follows_timeline`, the same of any run of operations that neither lay a fault
  nor write past the store.
-/
import LoginAdmission.Proofs.Counting.Evaluation
import LoginAdmission.Proofs.Lists.Database

namespace LoginAdmission

open Storage

/-! ## What the calls say, apart from numbers -/

/-- The last successful edit of a pair on a list put it there. -/
def Listed (calls : List Call) (list : AccessList) (subnet : Subnet) : Prop :=
  ∃ id, Stands calls list subnet id

theorem not_listed_nil (list : AccessList) (subnet : Subnet) : ¬ Listed [] list subnet :=
  fun ⟨id, h⟩ => not_stands_nil list subnet id h

/-- A call that does not edit the pair leaves it where it is. -/
theorem listed_frame {calls : List Call} {c : Call} {list : AccessList} {subnet : Subnet}
    (hc : c.edit? ≠ some (list, subnet)) :
    Listed (calls ++ [c]) list subnet ↔ Listed calls list subnet :=
  exists_congr fun _ => stands_frame hc

theorem listed_frames {calls more : List Call} {list : AccessList} {subnet : Subnet}
    (hmore : ∀ c ∈ more, c.edit? ≠ some (list, subnet)) :
    Listed (calls ++ more) list subnet ↔ Listed calls list subnet := by
  induction more generalizing calls with
  | nil => rw [List.append_nil]
  | cons c more ih =>
    rw [List.append_cons, ih fun d hd => hmore d (List.mem_cons_of_mem c hd)]
    exact listed_frame (hmore c List.mem_cons_self)

theorem listed_add {calls : List Call} {l list : AccessList} {pair subnet : Subnet} {id : UInt64} :
    Listed (calls ++ [⟨.add l pair, .ok id⟩]) list subnet ↔
      (list = l ∧ subnet = pair) ∨ Listed calls list subnet := by
  by_cases h : list = l ∧ subnet = pair
  · obtain ⟨rfl, rfl⟩ := h
    exact iff_of_true ⟨id, stands_snoc.mpr (Or.inl rfl)⟩ (Or.inl ⟨rfl, rfl⟩)
  · rw [listed_frame, or_iff_right h]
    intro hedit
    cases hedit
    exact h ⟨rfl, rfl⟩

theorem listed_remove {calls : List Call} {l list : AccessList} {pair subnet : Subnet} {u : Unit} :
    Listed (calls ++ [⟨.remove l pair, .ok u⟩]) list subnet ↔
      ¬ (list = l ∧ subnet = pair) ∧ Listed calls list subnet := by
  by_cases h : list = l ∧ subnet = pair
  · obtain ⟨rfl, rfl⟩ := h
    refine iff_of_false ?_ fun hs => hs.1 ⟨rfl, rfl⟩
    rintro ⟨id, hs⟩
    rcases stands_snoc.mp hs with hcall | ⟨hedit, -⟩
    · cases hcall
    · exact hedit rfl
  · rw [listed_frame, and_iff_right h]
    intro hedit
    cases hedit
    exact h ⟨rfl, rfl⟩

namespace Storage

/-! ## One table of rows -/

/-- A row under a number that the store gives out is that of an entry. -/
theorem Row.exists_ofEntry {id : Int} (hsign : ¬ id < 0) (hroom : ¬ RowTable.largestId < id)
    (subnet : Subnet) : ∃ e, Row.ofSubnet id subnet = Row.ofEntry e := by
  have hlt : id.toNat < wordBound := by
    unfold RowTable.largestId at hroom
    have := signedBound_lt_wordBound
    omega
  refine ⟨⟨UInt64.ofNat id.toNat, subnet⟩, ?_⟩
  rw [Row.ofEntry, UInt64.toNat_ofNat_of_lt' hlt, Int.toNat_of_nonneg (by omega)]

namespace RowTable

/-- Every row can be read as an entry, and numbers are given out from one on. -/
structure Readable (t : RowTable) : Prop where
  rows : ∀ r ∈ t.rows, ∃ e, r = Row.ofEntry e
  top : 0 ≤ t.top

theorem holds_iff {t : RowTable} {subnet : Subnet} :
    t.holds subnet = true ↔ ∃ r ∈ t.rows, r.holds subnet = true :=
  List.any_eq_true

theorem mem_place {r x : Row} {rows : List Row} : x ∈ place r rows ↔ x = r ∨ x ∈ rows := by
  induction rows with
  | nil => simp [place]
  | cons s rows ih =>
    rw [place]
    split
    · exact List.mem_cons
    · rw [List.mem_cons, ih, List.mem_cons, or_left_comm]

theorem holds_insert {t : RowTable} {id : Int} {pair subnet : Subnet} :
    (t.insert (.ofSubnet id pair)).holds subnet = true ↔
      subnet = pair ∨ t.holds subnet = true := by
  simp only [insert, holds_iff, mem_place, or_and_right, exists_or, exists_eq_left,
    Row.holds_ofSubnet, decide_eq_true_iff]
  rw [eq_comm (a := pair)]

theorem holds_erase {t : RowTable} (ht : t.Readable) {pair subnet : Subnet} :
    (t.erase pair).holds subnet = true ↔ subnet ≠ pair ∧ t.holds subnet = true := by
  have hrow : ∀ r ∈ t.rows, r.holds subnet = true →
      ((!r.holds pair) = true ↔ subnet ≠ pair) := by
    intro r hr hheld
    obtain ⟨e, rfl⟩ := ht.rows r hr
    unfold Row.ofEntry at hheld ⊢
    rw [Row.holds_ofSubnet, decide_eq_true_iff] at hheld
    rw [Row.holds_ofSubnet, hheld, ← decide_not, decide_eq_true_iff]
  unfold erase
  simp only [holds_iff, List.mem_filter]
  constructor
  · rintro ⟨r, ⟨hr, hkept⟩, hheld⟩
    exact ⟨(hrow r hr hheld).mp hkept, r, hr, hheld⟩
  · rintro ⟨hne, r, hr, hheld⟩
    exact ⟨r, ⟨hr, (hrow r hr hheld).mpr hne⟩, hheld⟩

namespace Readable

variable {t : RowTable}

theorem start : RowTable.empty.Readable := ⟨nofun, Int.le_refl 0⟩

/-- A row under the next number, while there is one. -/
theorem insert (h : t.Readable) (hroom : ¬ largestId < t.top + 1) (subnet : Subnet) :
    (t.insert (.ofSubnet (t.top + 1) subnet)).Readable where
  rows r hr := by
    rcases mem_place.mp hr with rfl | hr
    · have htop := h.top
      exact Row.exists_ofEntry (by omega) hroom subnet
    · exact h.rows r hr
  top := Int.le_trans h.top (Int.le_max_left ..)

theorem erase (h : t.Readable) (subnet : Subnet) : (t.erase subnet).Readable where
  rows r hr := h.rows r (List.mem_filter.mp hr).1
  top := h.top

/-- The rows are the entries of the list, written down. -/
theorem exists_entries (h : t.Readable) :
    ∃ entries : List Entry, t.rows = entries.map .ofEntry := by
  have hrows := h.rows
  generalize t.rows = rows at hrows
  induction rows with
  | nil => exact ⟨[], rfl⟩
  | cons r rows ih =>
    obtain ⟨e, rfl⟩ := hrows r List.mem_cons_self
    obtain ⟨entries, rfl⟩ := ih fun s hs => hrows s (List.mem_cons_of_mem _ hs)
    exact ⟨e :: entries, rfl⟩

end Readable

end RowTable

namespace Database

theorem table_of_openTable {db : Database} {list : AccessList} {t : RowTable}
    (h : db.openTable list = .ok t) : db.table? list = some t := by
  unfold openTable at h
  split at h
  · cases h
  · split at h
    · cases h
    · next heq => rw [heq, Except.ok.inj h]

/-- Both tables can be asked, and their rows read. -/
structure Open (db : Database) : Prop where
  tables : ∀ list, ∃ t, db.openTable list = .ok t ∧ t.Readable

namespace Open

variable {db : Database}

theorem start : Database.empty.Open where
  tables list := ⟨.empty, by cases list <;> rfl, .start⟩

/-- Replaces the table of a list. -/
theorem setTable (h : db.Open) {t : RowTable} (ht : t.Readable) (list : AccessList) :
    (db.setTable (some t) list).Open where
  tables l := by
    obtain ⟨t', hother, ht'⟩ := h.tables list.opposite
    obtain ⟨_, hown, -⟩ := h.tables list
    have hself := openTable_setTable_self (closed_of_openTable hown) t list
    rw [← openTable_setTable_opposite db (some t) list] at hother
    cases list <;> cases l
    · exact ⟨t, hself, ht⟩
    · exact ⟨t', hother, ht'⟩
    · exact ⟨t', hother, ht'⟩
    · exact ⟨t, hself, ht⟩

/-- An addition is refused, or writes a row under the next number. -/
theorem add_cases (h : db.Open) (list : AccessList) (subnet : Subnet) :
    (∃ e, db.add list subnet = .error e) ∨
    ∃ t id, db.openTable list = .ok t ∧ ¬ RowTable.largestId < t.top + 1 ∧
      db.add list subnet =
        .ok (id, db.setTable (some (t.insert (.ofSubnet (t.top + 1) subnet))) list) := by
  obtain ⟨t, hopen, ht⟩ := h.tables list
  obtain ⟨allow, hallow, -⟩ := h.tables .allow
  obtain ⟨deny, hdeny, -⟩ := h.tables .deny
  have htop := ht.top
  unfold add
  rw [insertUnlessHeld_eq hopen hallow hdeny]
  split
  · refine Or.inl ?_
    simp only [Bind.bind, Except.bind]
    rw [holder_eq hallow hdeny]
    generalize (if allow.holds subnet then _ else _ : Option AccessList) = holder
    cases holder <;> exact ⟨_, rfl⟩
  · split
    · exact Or.inl ⟨_, rfl⟩
    · next hroom =>
      have hpositive : ¬ t.top + 1 < 0 := by omega
      refine Or.inr ⟨t, UInt64.ofNat (t.top + 1).toNat, hopen, hroom, ?_⟩
      simp only [Bind.bind, Except.bind, if_neg hpositive]
      rfl

/-- A removal is refused, or takes the rows of the pair out. -/
theorem remove_cases (h : db.Open) (list : AccessList) (subnet : Subnet) :
    (∃ e, db.remove list subnet = .error e) ∨
    ∃ t, db.openTable list = .ok t ∧
      db.remove list subnet = .ok ((), db.setTable (some (t.erase subnet)) list) := by
  obtain ⟨t, hopen, -⟩ := h.tables list
  unfold remove
  rw [hopen]
  simp only [Bind.bind, Except.bind]
  split
  · exact Or.inl ⟨_, rfl⟩
  · exact Or.inr ⟨t, rfl, rfl⟩

/-- No table is missing, so a new connection finds the database as it is. -/
theorem reattach (h : db.Open) : db.reattach = .ok db := by
  obtain ⟨allow, hallow, -⟩ := h.tables .allow
  obtain ⟨deny, hdeny, -⟩ := h.tables .deny
  have hclosed := closed_of_openTable hallow
  have ht := table_of_openTable hallow
  have ht' := table_of_openTable hdeny
  obtain ⟨a, d, closed⟩ := db
  cases hclosed
  cases ht
  cases ht'
  rfl

end Open

end Database

end Storage

/-! ## Both kinds of lists -/

namespace Storage

theorem Memory.table_setTable (m : Memory) (t : Table) (list l : AccessList) :
    (m.setTable t list).table l = if l = list then t else m.table l := by
  cases list <;> cases l <;> rfl

theorem Database.openTable_setTable {db : Database} (h : db.closed = false) (t : RowTable)
    (list l : AccessList) :
    (db.setTable (some t) list).openTable l = if l = list then .ok t else db.openTable l := by
  cases list <;> cases l <;> simp [openTable, setTable, table?, h]

theorem Table.holds_erase_iff {t : Table} {pair subnet : Subnet} :
    (t.erase pair).holds subnet = true ↔ subnet ≠ pair ∧ t.holds subnet = true := by
  unfold erase
  simp only [Table.holds_iff, List.mem_filter, decide_eq_true_iff, exists_and_right]
  exact and_comm

end Storage

namespace ListStore

/-- Each list holds exactly these pairs, and can be asked for them. -/
def Holds (held : AccessList → Subnet → Prop) : ListStore → Prop
  | memory m => ∀ list subnet, (m.table list).holds subnet = true ↔ held list subnet
  | database db => db.Open ∧
    ∀ list t, db.openTable list = .ok t → ∀ subnet, t.holds subnet = true ↔ held list subnet

namespace Holds

variable {store : ListStore} {held held' : AccessList → Subnet → Prop} {calls : List Call}

theorem congr (h : store.Holds held) (heq : ∀ list subnet, held list subnet ↔ held' list subnet) :
    store.Holds held' := by
  cases store with
  | memory m => exact fun list subnet => (h list subnet).trans (heq list subnet)
  | database db =>
    exact ⟨h.1, fun list t ht subnet => (h.2 list t ht subnet).trans (heq list subnet)⟩

/-- An enumeration shows the pairs that the list holds. -/
theorem enumerate (h : store.Holds held) (list : AccessList) :
    ∃ entries, (store.enumerate list).1 = .ok entries ∧
      ∀ subnet, (∃ e ∈ entries, e.subnet = subnet) ↔ held list subnet := by
  cases store with
  | memory m =>
    refine ⟨m.enumerate list, rfl, fun subnet => ?_⟩
    rw [← h list subnet, Table.holds, List.any_eq_true]
    simp only [Memory.enumerate, List.mem_mergeSort, decide_eq_true_iff]
  | database db =>
    obtain ⟨t, hopen, ht⟩ := h.1.tables list
    obtain ⟨entries, hrows⟩ := ht.exists_entries
    refine ⟨entries, ?_, fun subnet => ?_⟩
    · simp only [ListStore.enumerate, Database.enumerate, hopen, Bind.bind, Except.bind, hrows,
        Row.mapM_entry]
      rfl
    · rw [← h.2 list t hopen subnet, RowTable.holds, hrows, List.any_map, List.any_eq_true]
      simp only [Function.comp, Row.ofEntry, Row.holds_ofSubnet, decide_eq_true_iff]

/-- A call that edits nothing. -/
theorem frame (h : store.Holds (Listed calls)) {c : Call} (hc : c.edit? = none) :
    store.Holds (Listed (calls ++ [c])) :=
  h.congr fun _ _ => (listed_frame (by rw [hc]; nofun)).symm

/-- An addition, whatever comes of it. -/
theorem add (h : store.Holds (Listed calls)) (list : AccessList) (pair : Subnet) :
    (store.add list pair).2.1.Holds
      (Listed (calls ++ [⟨.add list pair, (store.add list pair).1⟩])) := by
  cases store with
  | memory m =>
    simp only [ListStore.add]
    rcases m.add_cases list pair with ⟨holder, -, heq⟩ | ⟨-, heq⟩
    · rw [heq]
      exact h.frame rfl
    · rw [heq]
      intro l subnet
      rw [Memory.table_setTable, listed_add]
      split
      · next hl => rw [Table.holds_insert, hl, h list subnet, or_comm, and_iff_right rfl]
      · next hl => rw [h l subnet, or_iff_right fun hs => hl hs.1]
  | database db =>
    simp only [ListStore.add]
    rcases h.1.add_cases list pair with ⟨e, heq⟩ | ⟨t, id, hopen, hroom, heq⟩
    · rw [heq]
      cases e <;> exact h.frame rfl
    · obtain ⟨_, hopen', ht⟩ := h.1.tables list
      obtain rfl := Except.ok.inj (hopen.symm.trans hopen')
      rw [heq, ofDatabase]
      refine ⟨h.1.setTable (ht.insert hroom pair) list, fun l t' ht' subnet => ?_⟩
      rw [Database.openTable_setTable (Database.closed_of_openTable hopen)] at ht'
      rw [listed_add]
      split at ht'
      · next hl =>
        obtain rfl := Except.ok.inj ht'
        rw [RowTable.holds_insert, hl, h.2 list t hopen subnet, and_iff_right rfl]
      · next hl => rw [h.2 l t' ht' subnet, or_iff_right fun hs => hl hs.1]

/-- A removal, whatever comes of it. -/
theorem remove (h : store.Holds (Listed calls)) (list : AccessList) (pair : Subnet) :
    (store.remove list pair).2.1.Holds
      (Listed (calls ++ [⟨.remove list pair, (store.remove list pair).1⟩])) := by
  cases store with
  | memory m =>
    simp only [ListStore.remove]
    rcases m.remove_cases list pair with ⟨-, heq⟩ | ⟨-, heq⟩
    · rw [heq]
      intro l subnet
      rw [Memory.table_setTable, listed_remove]
      split
      · next hl => rw [Table.holds_erase_iff, hl, h list subnet, and_iff_right rfl]
      · next hl => rw [h l subnet, and_iff_right fun hs => hl hs.1]
    · rw [heq]
      exact h.frame rfl
  | database db =>
    simp only [ListStore.remove]
    rcases h.1.remove_cases list pair with ⟨e, heq⟩ | ⟨t, hopen, heq⟩
    · rw [heq]
      cases e <;> exact h.frame rfl
    · obtain ⟨_, hopen', ht⟩ := h.1.tables list
      obtain rfl := Except.ok.inj (hopen.symm.trans hopen')
      rw [heq, ofDatabase]
      refine ⟨h.1.setTable (ht.erase pair) list, fun l t' ht' subnet => ?_⟩
      rw [Database.openTable_setTable (Database.closed_of_openTable hopen)] at ht'
      rw [listed_remove]
      split at ht'
      · next hl =>
        obtain rfl := Except.ok.inj ht'
        rw [RowTable.holds_erase ht, hl, h.2 list t hopen subnet, and_iff_right rfl]
      · next hl => rw [h.2 l t' ht' subnet, and_iff_right fun hs => hl hs.1]

end Holds

/-- Lists that begin empty, in memory or in a database. -/
def Fresh (store : ListStore) : Prop := store = memory .empty ∨ store = database .empty

theorem Fresh.holds {store : ListStore} (h : store.Fresh) : store.Holds (Listed []) := by
  rcases h with rfl | rfl
  · intro list subnet
    refine iff_of_false ?_ (not_listed_nil list subnet)
    cases list <;> exact Bool.false_ne_true
  · refine ⟨.start, fun list t ht subnet => iff_of_false ?_ (not_listed_nil list subnet)⟩
    cases list <;> cases ht <;> exact Bool.false_ne_true

end ListStore

/-! ## Runs of a session -/

namespace Site

/-- The stores are sound, and the lists hold the pairs that stand on them by the calls. -/
structure Follows (s : Site) (calls : List Call) : Prop where
  sound : s.Sound
  lists : s.stores.lists.Holds (Listed calls)

namespace Follows

variable {s : Site} {calls : List Call}

/-- One request. -/
theorem answer (h : s.Follows calls) (request : Request) :
    let r := Site.host.answer request s
    r.2.1.Follows (calls ++ [⟨request, r.1⟩]) := by
  rw [host_answer_of_sound h.sound]
  refine ⟨?_, ?_⟩
  · cases request <;> exact h.sound
  · cases request with
    | add list subnet => exact h.lists.add list subnet
    | remove list subnet => exact h.lists.remove list subnet
    | enumerate list =>
      show (s.stores.lists.enumerate list).2.1.Holds _
      rw [ListStore.enumerate_state]
      exact h.lists.frame rfl
    | contains list subnet =>
      show (s.stores.lists.contains list subnet).2.1.Holds _
      rw [ListStore.contains_state]
      exact h.lists.frame rfl
    | increment | set | flush => exact h.lists.frame rfl

/-- A whole conversation. -/
theorem run {α : Type} (p : Procedure α) (h : s.Follows calls) :
    (p.run Site.host s).state.Follows (calls ++ (p.run Site.host s).calls) := by
  induction p generalizing s calls with
  | done result => simpa [Procedure.run] using h
  | ask request next ih =>
    have hrest := ih (Site.host.answer request s).1 (h.answer request)
    rw [List.append_assoc] at hrest
    exact hrest
  | note line next ih => exact ih h
  | announce event next ih =>
    have hheard : (Site.host.hear event s).1.Follows calls := ⟨h.sound, h.lists⟩
    exact ih hheard

end Follows

end Site

/-- The operation neither lays a fault on the stores nor writes past them into a database. -/
def Op.Regular : Op → Prop
  | .fail _ | .insertRow .. | .dropTable _ | .closeDatabase => False
  | _ => True

/-- A regular operation changes nothing at the lists past its conversation. -/
theorem Op.touch_follows {op : Op} (hop : op.Regular) {s : Site} {calls : List Call}
    (h : s.Follows calls) : (op.touch s).Follows calls := by
  cases op with
  | fail | insertRow | dropTable | closeDatabase => exact hop.elim
  | setCounter key n => exact ⟨h.sound, h.lists⟩
  | heal => exact ⟨rfl, h.lists⟩
  | clearEvents =>
    simp only [touch]
    split <;> exact ⟨h.sound, h.lists⟩
  | reattach =>
    simp only [touch, Site.withDatabase]
    split
    · exact h
    · next db hlists =>
      have hlists' := h.lists
      rw [hlists] at hlists'
      rw [hlists'.1.reattach]
      refine ⟨h.sound, ?_⟩
      show (ListStore.database db).Holds _
      exact hlists'
  | _ => exact h

namespace Session

/-- One regular operation. -/
theorem follows_step {s : Session} {calls : List Call} (h : s.site.Follows calls) {op : Op}
    (hop : op.Regular) :
    (s.step op).state.site.Follows (calls ++ (op.written ++ (s.step op).calls)) := by
  obtain ⟨hcalls, -, hsite⟩ := s.step_site op
  rw [hcalls, hsite]
  refine Op.touch_follows hop ?_
  cases op with
  | setCounter key n => exact ⟨h.sound, h.lists.frame rfl⟩
  | _ => exact h.run _

/-- Any run of regular operations. -/
theorem follows_timeline {s : Session} {calls : List Call} (h : s.site.Follows calls)
    {ops : List Op} (hops : ∀ op ∈ ops, op.Regular) :
    (s.after ops).site.Follows (calls ++ s.timeline ops) := by
  induction ops generalizing s calls with
  | nil => rwa [timeline, List.append_nil]
  | cons op ops ih =>
    have hstep := follows_step h (hops op List.mem_cons_self)
    rw [timeline, ← List.append_assoc]
    exact ih hstep fun op' hop' => hops op' (List.mem_cons_of_mem op hop')

end Session

end LoginAdmission
