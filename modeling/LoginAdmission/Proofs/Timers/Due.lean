/-
  What comes due: the times of one timer, and the order in which several come due together.

  A timer ticks in a loop, and what holds of the loop is by induction on it: its times split at any
  time between (`Timer.dues_split`), and they are `next + k * period` for all `k` below a count that
  needs no loop (`Timer.dues_eq`, `Timer.advance_eq`).

  A schedule puts the times of all its timers in order with a stable sort. An ordered list is known
  by what it holds for each time (`eq_of_ordered`), and a stable sort leaves that alone
  (`filter_mergeSort`), so what comes due splits as well. Main statements: `Schedule.due_add`,
  `Schedule.advance_add` (an advance may be split in two) and `Schedule.due_under` (among what comes
  due, the times of one handle are those of its timer).
-/
import LoginAdmission.Schedule

namespace LoginAdmission

/-! ## Ordered lists -/

section Ordered

variable {α : Type} (key : α → Nat)

/-- A stable sort keeps what there is for each key, in order. -/
theorem filter_mergeSort (l : List α) (k : Nat) :
    (l.mergeSort fun a b => key a ≤ key b).filter (key · = k) = l.filter (key · = k) := by
  have hequal : (l.filter (key · = k)).Pairwise fun a b => decide (key a ≤ key b) = true := by
    refine List.pairwise_of_forall_mem_list fun a ha b hb => ?_
    have hak : key a = k := by simpa using (List.mem_filter.mp ha).2
    have hbk : key b = k := by simpa using (List.mem_filter.mp hb).2
    exact decide_eq_true (by omega)
  have hsub : (l.filter (key · = k)).Sublist (l.mergeSort fun a b => key a ≤ key b) :=
    List.sublist_mergeSort (by simp only [decide_eq_true_iff]; omega)
      (by simp only [Bool.or_eq_true, decide_eq_true_iff]; omega) hequal List.filter_sublist
  have hsub' := hsub.filter (key · = k)
  rw [List.filter_filter] at hsub'
  simp only [Bool.and_self] at hsub'
  exact (hsub'.eq_of_length (((List.mergeSort_perm l _).filter _).length_eq).symm).symm

theorem ordered_mergeSort (l : List α) :
    (l.mergeSort fun a b => key a ≤ key b).Pairwise fun a b => key a ≤ key b := by
  refine List.Pairwise.imp of_decide_eq_true (List.pairwise_mergeSort ?_ ?_ l)
  · simp only [decide_eq_true_iff]
    omega
  · simp only [Bool.or_eq_true, decide_eq_true_iff]
    omega

/-- An ordered list is known by what it holds for each key. -/
theorem eq_of_ordered {l l' : List α} (h : l.Pairwise fun a b => key a ≤ key b)
    (h' : l'.Pairwise fun a b => key a ≤ key b)
    (hkeys : ∀ k, l.filter (key · = k) = l'.filter (key · = k)) : l = l' := by
  induction l generalizing l' with
  | nil =>
    cases l' with
    | nil => rfl
    | cons b l' => simpa using hkeys (key b)
  | cons a l ih =>
    cases l' with
    | nil => simpa using hkeys (key a)
    | cons b l' =>
      have hmem : a ∈ b :: l' := by
        have : a ∈ (b :: l').filter (key · = key a) := hkeys (key a) ▸ by simp
        exact (List.mem_filter.mp this).1
      have hmem' : b ∈ a :: l := by
        have : b ∈ (a :: l).filter (key · = key b) := hkeys (key b) ▸ by simp
        exact (List.mem_filter.mp this).1
      have hle : key b ≤ key a := by
        rcases List.mem_cons.mp hmem with rfl | hmem
        · exact Nat.le_refl _
        · exact (List.pairwise_cons.mp h').1 a hmem
      have hle' : key a ≤ key b := by
        rcases List.mem_cons.mp hmem' with rfl | hmem'
        · exact Nat.le_refl _
        · exact (List.pairwise_cons.mp h).1 b hmem'
      have hsame : key b = key a := Nat.le_antisymm hle hle'
      have hhead := hkeys (key a)
      simp only [List.filter_cons, hsame, decide_true, if_true, List.cons.injEq] at hhead
      obtain ⟨rfl, -⟩ := hhead
      congr 1
      refine ih (List.pairwise_cons.mp h).2 (List.pairwise_cons.mp h').2 fun k => ?_
      have htail := hkeys k
      simp only [List.filter_cons] at htail
      split at htail
      · exact (List.cons.inj htail).2
      · exact htail

end Ordered

/-! ## One timer -/

namespace Timer

variable (t : Timer)

theorem dues_of_due {time : Nat} (h : t.next ≤ time) :
    t.dues time = t.next :: t.tick.dues time := by
  rw [dues, if_pos h]

theorem dues_of_lt {time : Nat} (h : time < t.next) : t.dues time = [] := by
  rw [dues, if_neg (Nat.not_le_of_lt h)]

theorem advance_of_due {time : Nat} (h : t.next ≤ time) :
    t.advance time = t.tick.advance time := by
  rw [advance, if_pos h]

theorem le_of_mem_dues {time x : Nat} (h : x ∈ t.dues time) : t.next ≤ x ∧ x ≤ time := by
  fun_induction t.dues time with
  | case1 t hdue ih =>
    rcases List.mem_cons.mp h with rfl | hx
    · exact ⟨Nat.le_refl _, hdue⟩
    · have hlt := t.lt_tick
      have hx := ih hx
      omega
  | case2 t hdue => cases h

theorem ordered_dues (time : Nat) : (t.dues time).Pairwise (· ≤ ·) := by
  fun_induction t.dues time with
  | case1 t hdue ih =>
    refine List.pairwise_cons.mpr ⟨fun x hx => ?_, ih⟩
    exact Nat.le_of_lt (Nat.lt_of_lt_of_le t.lt_tick (t.tick.le_of_mem_dues hx).1)
  | case2 t hdue => exact .nil

/-- Past a time, the timer is due only later. -/
theorem lt_next_advance (time : Nat) : time < (t.advance time).next := by
  fun_induction t.advance time with
  | case1 t hdue ih => exact ih
  | case2 t hdue => exact Nat.lt_of_not_le hdue

theorem dues_split {time later : Nat} (h : time ≤ later) :
    t.dues later = t.dues time ++ (t.advance time).dues later := by
  fun_induction t.advance time with
  | case1 t hdue ih =>
    rw [t.dues_of_due (Nat.le_trans hdue h), t.dues_of_due hdue, ih, List.cons_append]
  | case2 t hdue => rw [t.dues_of_lt (Nat.lt_of_not_le hdue), List.nil_append]

example : dues ⟨"nightly", 3, 5, by decide⟩ 11 = [5, 8, 11] := by cbv

theorem advance_split {time later : Nat} (h : time ≤ later) :
    (t.advance time).advance later = t.advance later := by
  fun_induction t.advance time with
  | case1 t hdue ih => rw [ih, t.advance_of_due (Nat.le_trans hdue h)]
  | case2 t hdue => rfl

/-- How often the timer ticks by a time, without the loop. -/
def count (time : Nat) : Nat :=
  if t.next ≤ time then (time - t.next) / t.period + 1 else 0

theorem count_of_due {time : Nat} (h : t.next ≤ time) : t.count time = t.tick.count time + 1 := by
  have hpos := t.period_pos
  unfold count tick
  rw [if_pos h]
  dsimp only
  split
  · next hagain =>
    have hspan : time - t.next = time - (t.next + t.period) + t.period := by omega
    rw [hspan, Nat.add_div_right _ hpos]
  · next hagain => rw [Nat.div_eq_of_lt (by omega)]

theorem count_of_lt {time : Nat} (h : time < t.next) : t.count time = 0 :=
  if_neg (Nat.not_le_of_lt h)

/-- The timer ticks once in each period. -/
theorem dues_eq (time : Nat) :
    t.dues time = (List.range (t.count time)).map fun k => t.next + k * t.period := by
  fun_induction t.dues time with
  | case1 t hdue ih =>
    rw [ih, t.count_of_due hdue, List.range_succ_eq_map, List.map_cons, List.map_map]
    congr 1
    · rw [Nat.zero_mul, Nat.add_zero]
    · refine List.map_congr_left fun k _ => ?_
      simp only [tick, Function.comp, Nat.succ_mul]
      omega
  | case2 t hdue =>
    rw [t.count_of_lt (Nat.lt_of_not_le hdue)]
    rfl

theorem length_dues (time : Nat) : (t.dues time).length = t.count time := by
  rw [dues_eq, List.length_map, List.length_range]

theorem advance_eq (time : Nat) :
    t.advance time = { t with next := t.next + t.count time * t.period } := by
  fun_induction t.advance time with
  | case1 t hdue ih =>
    rw [ih, t.count_of_due hdue]
    simp only [tick, Timer.mk.injEq, true_and, Nat.succ_mul]
    omega
  | case2 t hdue =>
    rw [t.count_of_lt (Nat.lt_of_not_le hdue), Nat.zero_mul, Nat.add_zero]

theorem handle_advance (time : Nat) : (t.advance time).handle = t.handle := by
  rw [advance_eq]

/-- A timer that was just started is due once in each period, as often as its period goes into the
time since then. -/
theorem dues_started (handle : String) {period start time : Nat} (hperiod : 0 < period)
    (h : start ≤ time) :
    dues ⟨handle, period, start + period, hperiod⟩ time =
      (List.range ((time - start) / period)).map fun k => start + (k + 1) * period := by
  have hcount : count ⟨handle, period, start + period, hperiod⟩ time = (time - start) / period := by
    simp only [count]
    split
    · rw [← Nat.add_div_right _ hperiod]
      congr 1
      omega
    · exact (Nat.div_eq_of_lt (by omega)).symm
  rw [dues_eq, hcount]
  refine List.map_congr_left fun k _ => ?_
  dsimp only
  rw [Nat.add_mul, Nat.one_mul]
  omega

/-- The times of the timer up to a time, with its handle. -/
def stamped (time : Nat) : List (Nat × String) := (t.dues time).map fun x => (x, t.handle)

theorem le_of_mem_stamped {time : Nat} {x : Nat × String} (h : x ∈ t.stamped time) :
    t.next ≤ x.1 ∧ x.1 ≤ time := by
  obtain ⟨y, hy, rfl⟩ := List.mem_map.mp h
  exact t.le_of_mem_dues hy

theorem stamped_split {time later : Nat} (h : time ≤ later) :
    t.stamped later = t.stamped time ++ (t.advance time).stamped later := by
  unfold stamped
  rw [t.dues_split h, List.map_append, handle_advance]

theorem fst_stamped (time : Nat) : (t.stamped time).map Prod.fst = t.dues time := by
  simp [stamped, Function.comp_def]

end Timer

/-! ## Several timers -/

namespace Schedule

/-- The times of timers up to a time, with their handles, timer by timer. -/
def pending (timers : List Timer) (time : Nat) : List (Nat × String) :=
  timers.flatMap (·.stamped time)

theorem pending_cons (t : Timer) (timers : List Timer) (time : Nat) :
    pending (t :: timers) time = t.stamped time ++ pending timers time :=
  List.flatMap_cons

theorem mem_pending {timers : List Timer} {time : Nat} {x : Nat × String}
    (h : x ∈ pending timers time) : ∃ t ∈ timers, t.next ≤ x.1 ∧ x.1 ≤ time := by
  obtain ⟨t, ht, hx⟩ := List.mem_flatMap.mp h
  exact ⟨t, ht, t.le_of_mem_stamped hx⟩

theorem lt_of_mem_pending_advance {timers : List Timer} {time later : Nat} {x : Nat × String}
    (h : x ∈ pending (timers.map (·.advance time)) later) : time < x.1 := by
  obtain ⟨t', ht', hle, -⟩ := mem_pending h
  obtain ⟨t, -, rfl⟩ := List.mem_map.mp ht'
  exact Nat.lt_of_lt_of_le (t.lt_next_advance time) hle

/-- What is due at one time is due either up to the time where the timers are advanced, or after
it. -/
theorem pending_split (timers : List Timer) {time later : Nat} (h : time ≤ later) (k : Nat) :
    (pending timers later).filter (·.1 = k) = (pending timers time).filter (·.1 = k) ++
      (pending (timers.map (·.advance time)) later).filter (·.1 = k) := by
  induction timers with
  | nil => rfl
  | cons t timers ih =>
    -- The later times of `t` and the earlier ones of the rest are never the same.
    have hcomm : ((t.advance time).stamped later).filter (·.1 = k) ++
          (pending timers time).filter (·.1 = k) =
        (pending timers time).filter (·.1 = k) ++
          ((t.advance time).stamped later).filter (·.1 = k) := by
      rcases Nat.lt_or_ge time k with hk | hk
      · have hnone : (pending timers time).filter (·.1 = k) = [] := by
          refine List.filter_eq_nil_iff.mpr fun x hx => ?_
          obtain ⟨-, -, -, hle⟩ := mem_pending hx
          simp only [decide_eq_true_iff]
          omega
        rw [hnone, List.nil_append, List.append_nil]
      · have hnone : ((t.advance time).stamped later).filter (·.1 = k) = [] := by
          refine List.filter_eq_nil_iff.mpr fun x hx => ?_
          have hle := ((t.advance time).le_of_mem_stamped hx).1
          have hlt := t.lt_next_advance time
          simp only [decide_eq_true_iff]
          omega
        rw [hnone, List.nil_append, List.append_nil]
    simp only [List.map_cons, pending_cons, t.stamped_split h, List.filter_append, ih,
      List.append_assoc]
    rw [← List.append_assoc (List.filter _ (Timer.stamped _ later)), hcomm, List.append_assoc]

/-- What comes due is pending up to the new time, put in order. -/
theorem due_eq (s : Schedule) (millis : Nat) :
    s.due millis = (pending s.timers (s.now + millis)).mergeSort fun a b => a.1 ≤ b.1 := rfl

theorem ordered_due (s : Schedule) (millis : Nat) :
    (s.due millis).Pairwise fun a b => a.1 ≤ b.1 :=
  ordered_mergeSort Prod.fst _

theorem mem_due {s : Schedule} {millis : Nat} {x : Nat × String} (h : x ∈ s.due millis) :
    ∃ t ∈ s.timers, t.next ≤ x.1 ∧ x.1 ≤ s.now + millis :=
  mem_pending (List.mem_mergeSort.mp h)

/-- An advance by two spans makes due what the two advances make due, one after the other. -/
theorem due_add (s : Schedule) (a b : Nat) :
    s.due (a + b) = s.due a ++ (s.advance a).due b := by
  have hassoc : s.now + (a + b) = (s.advance a).now + b := (Nat.add_assoc s.now a b).symm
  refine eq_of_ordered Prod.fst (s.ordered_due (a + b)) ?_ fun k => ?_
  · refine List.pairwise_append.mpr ⟨s.ordered_due a, (s.advance a).ordered_due b, ?_⟩
    intro x hx y hy
    obtain ⟨-, -, -, hle⟩ := mem_due hx
    have hlt := lt_of_mem_pending_advance (List.mem_mergeSort.mp hy)
    omega
  · -- The sorts are stable, so at any one time it is enough to look at what is pending.
    rw [List.filter_append, due_eq, due_eq, due_eq]
    simp only [filter_mergeSort Prod.fst, hassoc]
    exact pending_split s.timers (Nat.le_add_right _ b) k

/-- Timers that come due together do so in the order in which they were started. -/
example : (Schedule.mk 0 [⟨"a", 2, 2, by decide⟩, ⟨"b", 3, 3, by decide⟩]).due 6 =
    [(2, "a"), (3, "b"), (4, "a"), (6, "a"), (6, "b")] := by cbv

theorem advance_add (s : Schedule) (a b : Nat) : s.advance (a + b) = (s.advance a).advance b := by
  have hassoc : s.now + (a + b) = s.now + a + b := (Nat.add_assoc s.now a b).symm
  unfold advance
  simp only [hassoc, List.map_map]
  congr 1
  refine List.map_congr_left fun t _ => ?_
  exact (t.advance_split (Nat.le_add_right _ b)).symm

/-- What is due does not stop. -/
theorem isRunning_advance (s : Schedule) (millis : Nat) (handle : String) :
    (s.advance millis).isRunning handle = s.isRunning handle := by
  unfold isRunning advance
  simp only [List.any_map, Function.comp_def, Timer.handle_advance]

/-! ## The timers of one handle -/

/-- The timers that run under a handle. -/
def under (s : Schedule) (handle : String) : List Timer := s.timers.filter (·.handle = handle)

theorem filter_pending (timers : List Timer) (time : Nat) (handle : String) :
    (pending timers time).filter (·.2 = handle) =
      pending (timers.filter (·.handle = handle)) time := by
  induction timers with
  | nil => rfl
  | cons t timers ih =>
    have hfilter : (t.stamped time).filter (·.2 = handle) =
        if t.handle = handle then t.stamped time else [] := by
      split
      · next h => exact List.filter_eq_self.mpr (by simp [Timer.stamped, h])
      · next h => exact List.filter_eq_nil_iff.mpr (by simp [Timer.stamped, h])
    rw [pending_cons, List.filter_append, hfilter, ih, List.filter_cons]
    by_cases h : t.handle = handle
    · rw [if_pos h, if_pos (decide_eq_true h), pending_cons]
    · rw [if_neg h, if_neg (by simpa using h), List.nil_append]

/-- Among what comes due, the times of a handle are those of its one timer. -/
theorem due_under {s : Schedule} {handle : String} {t : Timer} (h : s.under handle = [t])
    (millis : Nat) :
    ((s.due millis).filter (·.2 = handle)).map Prod.fst = t.dues (s.now + millis) := by
  have hperm := ((List.mergeSort_perm (pending s.timers (s.now + millis))
    fun a b => a.1 ≤ b.1).filter (·.2 = handle)).map Prod.fst
  unfold under at h
  have hone : pending [t] (s.now + millis) = t.stamped (s.now + millis) := List.append_nil _
  rw [filter_pending, h, hone, t.fst_stamped, ← due_eq] at hperm
  refine hperm.eq_of_pairwise (fun _ _ _ _ => Nat.le_antisymm) ?_ (t.ordered_dues _)
  exact ((s.ordered_due millis).filter _).map _ fun _ _ h => h

/-- Nothing comes due under a handle without a timer. -/
theorem due_under_nil {s : Schedule} {handle : String} (h : s.under handle = []) (millis : Nat) :
    (s.due millis).filter (·.2 = handle) = [] := by
  refine List.filter_eq_nil_iff.mpr fun x hx hhandle => ?_
  have hmem : x ∈ (pending s.timers (s.now + millis)).filter (·.2 = handle) :=
    List.mem_filter.mpr ⟨List.mem_mergeSort.mp hx, hhandle⟩
  unfold under at h
  rw [filter_pending, h] at hmem
  cases hmem

end Schedule

end LoginAdmission
