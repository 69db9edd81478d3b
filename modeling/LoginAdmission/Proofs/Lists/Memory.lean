/-
  The lists in memory over whole runs.

  `ListLaw` is what a list store promises after a sequence of calls, told by the history of these
  calls alone. The invariant behind it is `Memory.Agrees`: the entries of each table are the pairs
  that stand on its list, in the order of their numbers and none above the last one given out, the
  last number counts the additions, and no pair is in both tables.

  Main statement: `memory_law`, the law after any calls on lists that begin empty.
-/
import LoginAdmission.Proofs.Lists.History

namespace LoginAdmission

/-- Every addition got the number after those that the list had given out before. -/
def Numbered (calls : List Call) : Prop :=
  ∀ before list subnet id after, calls = before ++ ⟨.add list subnet, .ok id⟩ :: after →
    id.toNat = additions list before + 1

/-- What holds of a list store after a sequence of calls. -/
structure ListLaw (store : ListStore) (past : List Call) : Prop where
  /-- No pair is on both lists. -/
  exclusive : ∀ subnet, ¬ ((store.ask (.contains .allow subnet)).1 = .ok true ∧
    (store.ask (.contains .deny subnet)).1 = .ok true)
  /-- A pair is on a list if its last successful edit there was an addition. -/
  contains : ∀ list subnet, ∃ held, (store.ask (.contains list subnet)).1 = .ok held ∧
    (held = true ↔ ∃ id, Stands past list subnet id)
  /-- Each list numbers its successful additions from one on, and skips and reuses no number. -/
  numbered : Numbered past
  /-- A list shows every pair on it once, under the number its addition returned, in the order of
  these numbers. -/
  enumerate : ∀ list, ∃ entries, (store.ask (.enumerate list)).1 = .ok entries ∧
    (∀ id subnet, ⟨id, subnet⟩ ∈ entries ↔ Stands past list subnet id) ∧
    entries.Pairwise (fun a b => a.id < b.id ∧ a.subnet ≠ b.subnet)
  /-- An addition fails if a list holds the pair. -/
  addFails : ∀ list subnet, (∃ e, (store.ask (.add list subnet)).1 = .error e) ↔
    ∃ holder id, Stands past holder subnet id
  /-- A failed addition names a list that holds the pair. -/
  addConflict : ∀ list subnet e, (store.ask (.add list subnet)).1 = .error e →
    ∃ holder id, e = .conflict holder subnet ∧ Stands past holder subnet id
  /-- A removal fails if the list does not hold the pair. -/
  removeFails : ∀ list subnet e, (store.ask (.remove list subnet)).1 = .error e ↔
    e = .notFound list subnet ∧ ¬ ∃ id, Stands past list subnet id
  /-- A failed call changes nothing. -/
  unchanged : ∀ r e, (store.ask r).1 = .error e → (store.ask r).2 = store

namespace Storage

/-! ## One table -/

namespace Table

theorem holds_iff {t : Table} {subnet : Subnet} :
    t.holds subnet = true ↔ ∃ id, ⟨id, subnet⟩ ∈ t.entries := by
  unfold holds
  rw [List.any_eq_true]
  constructor
  · rintro ⟨⟨id, s⟩, hmem, hs⟩
    obtain rfl : s = subnet := of_decide_eq_true hs
    exact ⟨id, hmem⟩
  · rintro ⟨id, hmem⟩
    exact ⟨_, hmem, decide_eq_true rfl⟩

theorem holds_insert {t : Table} {subnet s : Subnet} :
    (t.insert subnet).holds s = true ↔ t.holds s = true ∨ s = subnet := by
  unfold insert holds
  rw [List.any_append, Bool.or_eq_true, List.any_cons, List.any_nil, Bool.or_false,
    decide_eq_true_iff, eq_comm (a := subnet)]

theorem holds_erase {t : Table} {subnet s : Subnet} :
    (t.erase subnet).holds s = true → t.holds s = true := by
  rw [holds_iff, holds_iff]
  rintro ⟨id, hmem⟩
  exact ⟨id, (List.mem_filter.mp hmem).1⟩

/-- The numbers of a table ascend, up to the last one given out, and no pair is in it twice. -/
structure Ascending (t : Table) : Prop where
  within : ∀ e ∈ t.entries, e.id ≤ t.lastId
  ordered : t.entries.Pairwise fun a b => a.id < b.id ∧ a.subnet ≠ b.subnet

namespace Ascending

variable {t : Table} {subnet : Subnet}

theorem start : Table.empty.Ascending := ⟨nofun, .nil⟩

theorem insert (h : t.Ascending) (hfree : ¬ t.holds subnet = true)
    (hnext : (t.lastId + 1).toNat = t.lastId.toNat + 1) : (t.insert subnet).Ascending := by
  have habove : ∀ e ∈ t.entries, e.id < t.lastId + 1 := by
    intro e he
    have hle := UInt64.le_iff_toNat_le.mp (h.within e he)
    rw [UInt64.lt_iff_toNat_lt]
    omega
  constructor
  case within =>
    intro e he
    rcases List.mem_append.mp he with he | he
    · exact UInt64.le_of_lt (habove e he)
    · rw [List.mem_singleton.mp he]
      exact UInt64.le_refl _
  case ordered =>
    refine List.pairwise_append.mpr ⟨h.ordered, List.pairwise_singleton _ _, fun a ha b hb => ?_⟩
    rw [List.mem_singleton.mp hb]
    refine ⟨habove a ha, ?_⟩
    rintro (rfl : a.subnet = subnet)
    exact hfree (Table.holds_iff.mpr ⟨a.id, ha⟩)

theorem erase (h : t.Ascending) (subnet : Subnet) : (t.erase subnet).Ascending where
  within e he := h.within e (List.mem_filter.mp he).1
  ordered := h.ordered.filter _

end Ascending

/-- A table is what the calls made of a list. -/
structure Keeps (t : Table) (list : AccessList) (calls : List Call) : Prop where
  counted : t.lastId.toNat = additions list calls
  standing : ∀ id subnet, ⟨id, subnet⟩ ∈ t.entries ↔ Stands calls list subnet id
  ordered : t.entries.Pairwise fun a b => a.id < b.id ∧ a.subnet ≠ b.subnet
  within : ∀ e ∈ t.entries, e.id ≤ t.lastId

namespace Keeps

variable {t : Table} {list : AccessList} {calls : List Call} {subnet : Subnet}

theorem start (list : AccessList) : Table.empty.Keeps list [] where
  counted := rfl
  standing id subnet := by
    constructor
    · nofun
    · exact fun h => absurd h (not_stands_nil list subnet id)
  ordered := List.Pairwise.nil
  within := nofun

theorem holds_iff (h : t.Keeps list calls) :
    t.holds subnet = true ↔ ∃ id, Stands calls list subnet id := by
  rw [Table.holds_iff]
  simp only [h.standing]

/-- A call that leaves the list alone. -/
theorem frame (h : t.Keeps list calls) {c : Call} (hc : ∀ subnet, c.edit? ≠ some (list, subnet)) :
    t.Keeps list (calls ++ [c]) where
  counted := by
    rw [h.counted, additions_snoc, Call.addsTo_eq_false hc]
    rfl
  standing id subnet := by
    rw [stands_frame (hc subnet)]
    exact h.standing id subnet
  ordered := h.ordered
  within := h.within

/-- The next number is one above the last while there is one. -/
theorem next (h : t.Keeps list calls) (hroom : additions list calls + 1 < wordBound) :
    (t.lastId + 1).toNat = additions list calls + 1 := by
  rw [UInt64.toNat_add, h.counted, UInt64.toNat_one]
  exact Nat.mod_eq_of_lt hroom

/-- A pair that the table does not hold gets the next number. -/
theorem insert (h : t.Keeps list calls) (hfree : ¬ t.holds subnet = true)
    (hroom : additions list calls + 1 < wordBound) :
    (t.insert subnet).Keeps list (calls ++ [⟨.add list subnet, .ok (t.lastId + 1)⟩]) := by
  have hnext := h.next hroom
  have hascending : t.Ascending := ⟨h.within, h.ordered⟩
  have hinsert := hascending.insert hfree (hnext.trans (congrArg (· + 1) h.counted.symm))
  constructor
  case counted =>
    rw [additions_snoc, Call.addsTo, decide_eq_true rfl]
    exact hnext
  case standing =>
    intro id s
    rw [stands_snoc]
    unfold Table.insert
    rw [List.mem_append, List.mem_singleton, h.standing]
    constructor
    · rintro (hs | heq)
      · refine Or.inr ⟨fun hedit => hfree ?_, hs⟩
        cases hedit
        exact h.holds_iff.mpr ⟨id, hs⟩
      · cases heq
        exact Or.inl rfl
    · rintro (heq | ⟨-, hs⟩)
      · cases heq
        exact Or.inr rfl
      · exact Or.inl hs
  case ordered => exact hinsert.ordered
  case within => exact hinsert.within

/-- A pair that is taken out leaves its number behind. -/
theorem erase (h : t.Keeps list calls) (subnet : Subnet) :
    (t.erase subnet).Keeps list (calls ++ [⟨.remove list subnet, .ok ()⟩]) where
  counted := by
    rw [additions_snoc]
    exact h.counted
  standing id s := by
    rw [stands_snoc]
    unfold Table.erase
    rw [List.mem_filter, h.standing, decide_eq_true_iff]
    constructor
    · rintro ⟨hs, hne⟩
      refine Or.inr ⟨fun hedit => hne ?_, hs⟩
      cases hedit
      rfl
    · rintro (heq | ⟨hne, hs⟩)
      · cases heq
      · refine ⟨hs, ?_⟩
        rintro (rfl : s = subnet)
        exact hne rfl
  ordered := h.ordered.filter _
  within e he := h.within e (List.mem_filter.mp he).1

end Keeps

end Table

/-! ## Both tables -/

/-- What an addition comes to under one more call. -/
theorem numbered_snoc {calls : List Call} (h : Numbered calls) {c : Call}
    (hc : ∀ list subnet id, c = ⟨.add list subnet, .ok id⟩ → id.toNat = additions list calls + 1) :
    Numbered (calls ++ [c]) := by
  intro before list subnet id after heq
  rcases List.eq_nil_or_concat after with rfl | ⟨init, last, rfl⟩
  · obtain ⟨rfl, hlast⟩ := List.append_inj' heq rfl
    exact hc list subnet id (List.singleton_inj.mp hlast)
  · rw [List.concat_eq_append, ← List.cons_append, ← List.append_assoc] at heq
    exact h before list subnet id init (List.append_inj' heq rfl).1

namespace Memory

/-- The lists in memory are what the calls made of them. -/
structure Agrees (m : Memory) (calls : List Call) : Prop where
  tables : ∀ list, (m.table list).Keeps list calls
  exclusive : ∀ list subnet, (m.table list).holds subnet = true →
    ¬ (m.table list.opposite).holds subnet = true
  numbered : Numbered calls

/-- The lists after a request. -/
def after (m : Memory) : ListRequest → Memory
  | .add list subnet => (m.add list subnet).2
  | .remove list subnet => (m.remove list subnet).2
  | .contains _ _ | .enumerate _ => m

theorem ask_state (m : Memory) (r : ListRequest) :
    ((ListStore.memory m).ask r).2 = .memory (m.after r) := by
  cases r <;> rfl

/-- A run makes the call of its first request, and goes on from the lists after that. -/
theorem append_calls_cons (m : Memory) (past : List Call) (r : ListRequest)
    (asked : List ListRequest) :
    past ++ (ListStore.memory m).calls (r :: asked) =
      past ++ [(ListStore.memory m).call r] ++ (ListStore.memory (m.after r)).calls asked := by
  rw [ListStore.calls, ask_state, List.append_assoc, List.singleton_append]

/-- An addition is refused by a holder, or finds both tables free of the pair. -/
theorem add_cases (m : Memory) (list : AccessList) (subnet : Subnet) :
    (∃ holder, (m.table holder).holds subnet = true ∧
      m.add list subnet = (.error (.conflict holder subnet), m)) ∨
    (∀ l, ¬ (m.table l).holds subnet = true) ∧
      m.add list subnet = (.ok ((m.table list).lastId + 1),
        m.setTable ((m.table list).insert subnet) list) := by
  unfold add holder?
  by_cases hown : (m.table list).holds subnet = true
  · exact Or.inl ⟨list, hown, by rw [if_pos hown]⟩
  · by_cases hother : (m.table list.opposite).holds subnet = true
    · exact Or.inl ⟨list.opposite, hother, by rw [if_neg hown, if_pos hother]⟩
    · refine Or.inr ⟨fun l => ?_, by rw [if_neg hown, if_neg hother]; rfl⟩
      cases l <;> cases list <;> assumption

/-- A removal takes out a pair that the list holds, or is refused. -/
theorem remove_cases (m : Memory) (list : AccessList) (subnet : Subnet) :
    (m.table list).holds subnet = true ∧
      m.remove list subnet = (.ok (), m.setTable ((m.table list).erase subnet) list) ∨
    ¬ (m.table list).holds subnet = true ∧
      m.remove list subnet = (.error (.notFound list subnet), m) := by
  unfold remove
  by_cases h : (m.table list).holds subnet = true
  · exact Or.inl ⟨h, by rw [if_pos h]⟩
  · exact Or.inr ⟨h, by rw [if_neg h]⟩

/-- A failed call changes nothing. -/
theorem after_of_error {m : Memory} {r : ListRequest} {e : StoreError}
    (h : ((ListStore.memory m).ask r).1 = .error e) : m.after r = m := by
  cases r with
  | add list subnet =>
    change (m.add list subnet).1 = .error e at h
    rcases m.add_cases list subnet with ⟨_, -, heq⟩ | ⟨-, heq⟩
    · rw [after, heq]
    · rw [heq] at h
      cases h
  | remove list subnet =>
    change (m.remove list subnet).1 = .error e at h
    rcases m.remove_cases list subnet with ⟨-, heq⟩ | ⟨-, heq⟩
    · rw [heq] at h
      cases h
    · rw [after, heq]
  | contains list subnet => rfl
  | enumerate list => rfl

theorem Agrees.start : Memory.empty.Agrees [] where
  tables list := by cases list <;> exact Table.Keeps.start _
  exclusive list _ h := by cases list <;> cases h
  numbered before _ _ _ after h := by
    exact absurd h.symm (List.append_ne_nil_of_right_ne_nil before (List.cons_ne_nil _ after))

namespace Agrees

variable {m : Memory} {calls : List Call}

/-- A call that edits nothing. -/
theorem frame (h : m.Agrees calls) {c : Call} (hc : c.edit? = none) : m.Agrees (calls ++ [c]) where
  tables list := (h.tables list).frame fun subnet => by rw [hc]; nofun
  exclusive := h.exclusive
  numbered := numbered_snoc h.numbered (by rintro list subnet id rfl; cases hc)

/-- Changes one table, by a call that edits its list only. -/
theorem setTable (h : m.Agrees calls) {t : Table} {list : AccessList} {c : Call}
    (ht : t.Keeps list (calls ++ [c])) (hc : ∀ subnet, c.edit? ≠ some (list.opposite, subnet))
    (hfree : ∀ subnet, t.holds subnet = true → ¬ (m.table list.opposite).holds subnet = true)
    (hnumbered : Numbered (calls ++ [c])) : (m.setTable t list).Agrees (calls ++ [c]) := by
  have hother := (h.tables list.opposite).frame hc
  constructor
  case tables =>
    intro l
    cases list <;> cases l <;> assumption
  case exclusive =>
    intro l subnet hl
    cases list with
    | allow => cases l with
      | allow => exact hfree subnet hl
      | deny => exact fun hallow => hfree subnet hallow hl
    | deny => cases l with
      | allow => exact fun hdeny => hfree subnet hdeny hl
      | deny => exact hfree subnet hl
  case numbered => exact hnumbered

/-- An addition, while there are numbers left. -/
theorem add (h : m.Agrees calls) (list : AccessList) (subnet : Subnet)
    (hroom : additions list (calls ++ [⟨.add list subnet, (m.add list subnet).1⟩]) < wordBound) :
    (m.add list subnet).2.Agrees (calls ++ [⟨.add list subnet, (m.add list subnet).1⟩]) := by
  rcases m.add_cases list subnet with ⟨holder, -, heq⟩ | ⟨hfree, heq⟩
  · rw [heq]
    exact h.frame rfl
  · rw [heq] at hroom ⊢
    rw [additions_snoc, Call.addsTo, decide_eq_true rfl] at hroom
    refine h.setTable ((h.tables list).insert (hfree list) hroom) ?_ ?_ ?_
    · intro s hedit
      cases list <;> cases hedit
    · intro s hs
      rcases Table.holds_insert.mp hs with hs | rfl
      · exact h.exclusive list s hs
      · exact hfree list.opposite
    · refine numbered_snoc h.numbered ?_
      rintro l s id heq
      cases heq
      exact (h.tables list).next hroom

/-- A removal. -/
theorem remove (h : m.Agrees calls) (list : AccessList) (subnet : Subnet) :
    (m.remove list subnet).2.Agrees
      (calls ++ [⟨.remove list subnet, (m.remove list subnet).1⟩]) := by
  rcases m.remove_cases list subnet with ⟨-, heq⟩ | ⟨-, heq⟩
  · rw [heq]
    refine h.setTable ((h.tables list).erase subnet) ?_ ?_ ?_
    · intro s hedit
      cases list <;> cases hedit
    · exact fun s hs => h.exclusive list s (Table.holds_erase hs)
    · exact numbered_snoc h.numbered (by rintro l s id ⟨⟩)
  · rw [heq]
    exact h.frame rfl

/-- Any request, while there are numbers left. -/
theorem ask (h : m.Agrees calls) (r : ListRequest)
    (hroom : ∀ list, additions list (calls ++ [(ListStore.memory m).call r]) < wordBound) :
    (m.after r).Agrees (calls ++ [(ListStore.memory m).call r]) := by
  cases r with
  | add list subnet => exact h.add list subnet (hroom list)
  | remove list subnet => exact h.remove list subnet
  | contains list subnet => exact h.frame rfl
  | enumerate list => exact h.frame rfl

/-- Any run, while there are numbers left. -/
theorem run (h : m.Agrees calls) (asked : List ListRequest)
    (hroom : ∀ list, additions list (calls ++ (ListStore.memory m).calls asked) < wordBound) :
    ∃ m', (ListStore.memory m).afterCalls asked = .memory m' ∧
      m'.Agrees (calls ++ (ListStore.memory m).calls asked) := by
  induction asked generalizing m calls with
  | nil => exact ⟨m, rfl, by simpa [ListStore.calls] using h⟩
  | cons r asked ih =>
    rw [append_calls_cons] at hroom ⊢
    have hstep := h.ask r fun list => Nat.lt_of_le_of_lt (additions_le_append ..) (hroom list)
    obtain ⟨m', hafter, hagrees⟩ := ih hstep hroom
    refine ⟨m', ?_, hagrees⟩
    rw [← hafter, ← ask_state]
    rfl

/-- Enumeration finds the entries in order already. -/
theorem enumerate_eq (h : m.Agrees calls) (list : AccessList) :
    m.enumerate list = (m.table list).entries := by
  refine List.mergeSort_of_pairwise ((h.tables list).ordered.imp fun hab => ?_)
  exact decide_eq_true (UInt64.le_of_lt hab.1)

/-- A refused addition names a list on which the pair stands. -/
theorem stands_of_add (h : m.Agrees calls) {list : AccessList} {subnet : Subnet} {e : StoreError}
    (he : (m.add list subnet).1 = .error e) :
    ∃ holder id, e = .conflict holder subnet ∧ Stands calls holder subnet id := by
  rcases m.add_cases list subnet with ⟨holder, hheld, heq⟩ | ⟨-, heq⟩
  · rw [heq] at he
    obtain ⟨id, hs⟩ := (h.tables holder).holds_iff.mp hheld
    exact ⟨holder, id, (Except.error.inj he).symm, hs⟩
  · rw [heq] at he
    cases he

/-- A pair that stands on some list is refused. -/
theorem add_of_stands (h : m.Agrees calls) (list : AccessList) {holder : AccessList}
    {subnet : Subnet} {id : UInt64} (hs : Stands calls holder subnet id) :
    ∃ e, (m.add list subnet).1 = .error e := by
  rcases m.add_cases list subnet with ⟨holder, -, heq⟩ | ⟨hfree, -⟩
  · exact ⟨.conflict holder subnet, by rw [heq]⟩
  · exact absurd ((h.tables holder).holds_iff.mpr ⟨id, hs⟩) (hfree holder)

theorem remove_error_iff (h : m.Agrees calls) {list : AccessList} {subnet : Subnet}
    {e : StoreError} : (m.remove list subnet).1 = .error e ↔
      e = .notFound list subnet ∧ ¬ ∃ id, Stands calls list subnet id := by
  rw [← (h.tables list).holds_iff]
  rcases m.remove_cases list subnet with ⟨hheld, heq⟩ | ⟨hfree, heq⟩
  · rw [heq]
    exact ⟨nofun, fun hs => absurd hheld hs.2⟩
  · rw [heq]
    exact ⟨fun he => ⟨(Except.error.inj he).symm, hfree⟩, fun hs => by rw [hs.1]⟩

/-- The law of the lists follows from the invariant. -/
theorem law (h : m.Agrees calls) : ListLaw (.memory m) calls where
  exclusive subnet := by
    rintro ⟨hallow, hdeny⟩
    exact h.exclusive .allow subnet (Except.ok.inj hallow) (Except.ok.inj hdeny)
  contains list subnet := ⟨(m.table list).holds subnet, rfl, (h.tables list).holds_iff⟩
  numbered := h.numbered
  enumerate list := ⟨m.enumerate list, rfl, by
    rw [h.enumerate_eq]
    exact ⟨(h.tables list).standing, (h.tables list).ordered⟩⟩
  addFails list subnet := by
    constructor
    · rintro ⟨e, he⟩
      obtain ⟨holder, id, -, hs⟩ := h.stands_of_add he
      exact ⟨holder, id, hs⟩
    · rintro ⟨holder, id, hs⟩
      exact h.add_of_stands list hs
  addConflict list subnet e he := h.stands_of_add he
  removeFails list subnet e := h.remove_error_iff
  unchanged r e he := by rw [ask_state, after_of_error he]

end Agrees

end Memory

end Storage

/-- The law of the lists in memory, after any calls that begin with empty lists. -/
theorem memory_law (asked : List ListRequest)
    (hroom : ∀ list, additions list ((ListStore.memory .empty).calls asked) < wordBound) :
    ListLaw ((ListStore.memory .empty).afterCalls asked)
      ((ListStore.memory .empty).calls asked) := by
  obtain ⟨m, hafter, hagrees⟩ := Storage.Memory.Agrees.start.run asked hroom
  rw [hafter]
  exact hagrees.law

/-- A pair that is refused by the other list, moves there, and leaves its number behind. -/
theorem memory_law_moved :
    let pair : Subnet := ⟨⟨167772160#32⟩, 8, by decide, by decide⟩
    let asked : List ListRequest :=
      [.add .allow pair, .add .deny pair, .remove .allow pair, .add .deny pair, .enumerate .deny]
    (∀ list, additions list ((ListStore.memory .empty).calls asked) < wordBound) ∧
      ListLaw ((ListStore.memory .empty).afterCalls asked)
        ((ListStore.memory .empty).calls asked) := by
  intro pair asked
  have hroom : ∀ list, additions list ((ListStore.memory .empty).calls asked) < wordBound :=
    fun list => Nat.lt_of_le_of_lt (ListStore.additions_calls_le ..) (by decide)
  exact ⟨hroom, memory_law asked hroom⟩

end LoginAdmission
