/-
  Periodic flushes: which timer flushes when, over a whole run of a session.

  `Session.flushed` lists the flushes that the timers make, each with its time and its handle, in
  the order in which they are made. It reads the schedule alone; that the stores are asked for just
  these flushes is part of the law.

  Main statement: `timer_law`, for every run, whatever faults it lays. A handle that is started at
  time `s` with period `p` and runs until time `c` flushes at `s + p`, `s + 2p` and so on up to `c`,
  whatever is done beside. One step of the induction is `under_reschedule` (no other operation
  touches the timer) or `Schedule.due_under` (an advance makes its next times due).
-/
import LoginAdmission.Proofs.Steps
import LoginAdmission.Proofs.Timers.Due

namespace LoginAdmission

open Procedure

namespace Op

/-- The operation starts a timer under the handle. An interval of zero is refused. -/
def Starts (handle : String) : Op → Prop
  | .start handle' millis => handle' = handle ∧ 0 < millis
  | _ => False

/-- The operation stops the timer of the handle. -/
def Stops (handle : String) : Op → Prop
  | .stop handle' => handle' = handle
  | _ => False

/-- The milliseconds that pass in an operation. -/
def millis : Op → Nat
  | .advance millis => millis
  | _ => 0

/-- What comes due in an operation. -/
def due : Op → Schedule → List (Nat × String)
  | .advance millis, t => t.due millis
  | _, _ => []

end Op

namespace Session

/-- The flushes that timers make while operations are done, with their times and handles. -/
def flushed (s : Session) : List Op → List (Nat × String)
  | [] => []
  | op :: ops => op.due s.schedule ++ flushed (s.step op).state ops

/-- The times at which the timer of a handle flushes. -/
def flushTimes (s : Session) (ops : List Op) (handle : String) : List Nat :=
  ((s.flushed ops).filter (·.2 = handle)).map Prod.fst

end Session

/-- When the timers of a run flush. -/
structure TimerLaw (start : Session) (ops : List Op) : Prop where
  /-- An advance asks for one flush for each timer that comes due in it, and for nothing else,
  whether the stores answer or fail. -/
  calls : ∀ before millis after, ops = before ++ .advance millis :: after →
    let s := start.after before
    (s.step (.advance millis)).calls.map (·.request) = (s.schedule.due millis).map fun _ => .flush
  /-- The clock moves only in advances. -/
  clock : (start.after ops).schedule.now =
    ops.foldl (fun now op => now + op.millis) start.schedule.now
  /-- All flushes are made in the order of time. -/
  ordered : (start.flushed ops).Pairwise fun x y => x.1 ≤ y.1
  /-- A handle that is started once, and stopped once or not at all, flushes at the multiples of its
  period since the start, up to the stop or the end. -/
  once : ∀ before handle period during after,
    ops = before ++ .start handle period :: (during ++ after) → 0 < period →
    (∀ op ∈ before ++ during ++ after, ¬ op.Starts handle) →
    (∀ op ∈ during, ¬ op.Stops handle) → (after = [] ∨ ∃ rest, after = .stop handle :: rest) →
    let started := (start.after before).schedule.now
    let ended := (start.after (before ++ .start handle period :: during)).schedule.now
    start.flushTimes ops handle =
      (List.range ((ended - started) / period)).map fun k => started + (k + 1) * period
  /-- So does a handle that was used before, from a start on, while it is neither stopped nor
  started anew. -/
  running : ∀ before handle period during after,
    ops = before ++ .start handle period :: (during ++ after) → 0 < period →
    (∀ op ∈ during, ¬ op.Starts handle ∧ ¬ op.Stops handle) →
    let s := start.after (before ++ [.start handle period])
    let started := (start.after before).schedule.now
    let ended := (start.after (before ++ .start handle period :: during)).schedule.now
    s.flushTimes during handle =
      (List.range ((ended - started) / period)).map fun k => started + (k + 1) * period
  /-- A handle that is stopped flushes no more until it is started anew. -/
  stopped : ∀ before handle during after,
    ops = before ++ .stop handle :: (during ++ after) → (∀ op ∈ during, ¬ op.Starts handle) →
    (start.after (before ++ [.stop handle])).flushTimes during handle = []
  /-- What is done beside leaves the timer of a handle alone. -/
  others : ∀ before op after, ops = before ++ op :: after → (∀ millis, op ≠ .advance millis) →
    ∀ handle, ¬ op.Starts handle → ¬ op.Stops handle →
    (start.after (before ++ [op])).schedule.under handle =
      (start.after before).schedule.under handle
  /-- So do the stores, the faults laid on them, and all else that is not the schedule. -/
  independent : ∀ start' : Session, start'.schedule = start.schedule →
    (start'.after ops).schedule = (start.after ops).schedule ∧
      start'.flushed ops = start.flushed ops
  /-- An advance may be split in two. -/
  split : ∀ before a b after, ops = before ++ .advance (a + b) :: after →
    let ops' := before ++ .advance a :: .advance b :: after
    start.flushed ops' = start.flushed ops ∧ start.after ops' = start.after ops ∧
      (start.run ops').flatMap (·.calls) = (start.run ops).flatMap (·.calls) ∧
      (start.run ops').flatMap (·.events) = (start.run ops).flatMap (·.events) ∧
      (start.run ops').flatMap (·.logs) = (start.run ops).flatMap (·.logs)

/-! ## One operation on a schedule -/

namespace Schedule

/-- Every timer is due later than now. -/
def Ahead (s : Schedule) : Prop := ∀ t ∈ s.timers, s.now < t.next

theorem under_stop (s : Schedule) (handle handle' : String) :
    (s.stop handle').under handle = if handle' = handle then [] else s.under handle := by
  unfold under stop
  rw [List.filter_filter]
  split
  · next h => exact List.filter_eq_nil_iff.mpr (by simp [h])
  · next h =>
    refine List.filter_congr fun t _ => ?_
    by_cases ht : t.handle = handle
    · simp [ht, Ne.symm h]
    · simp [ht]

theorem under_start (s : Schedule) (handle handle' : String) {period : Nat} (h : 0 < period) :
    (s.start handle' period h).under handle =
      if handle' = handle then [⟨handle', period, s.now + period, h⟩] else s.under handle := by
  have hstop := s.under_stop handle handle'
  unfold under at hstop ⊢
  simp only [start, List.filter_append, hstop]
  split <;> simp_all

theorem under_advance (s : Schedule) (handle : String) (millis : Nat) :
    (s.advance millis).under handle = (s.under handle).map (·.advance (s.now + millis)) := by
  unfold under advance
  simp only [List.filter_map, Function.comp_def, Timer.handle_advance]

theorem start?_pos (s : Schedule) (handle : String) {period : Nat} (h : 0 < period) :
    start? (some s) handle period = .ok (s.start handle period h) := dif_pos h

end Schedule

namespace Op

variable (s : Schedule)

theorem reschedule_start {handle : String} {period : Nat} (h : 0 < period) :
    (Op.start handle period).reschedule s = s.start handle period h := by
  simp only [reschedule, s.start?_pos handle h]
  rfl

theorem now_reschedule (op : Op) : (op.reschedule s).now = s.now + op.millis := by
  cases op with
  | start handle period =>
    rcases Nat.eq_zero_or_pos period with rfl | hperiod
    · rfl
    · rw [reschedule_start s hperiod]
      rfl
  | _ => rfl

/-- An operation that is neither an advance nor about the handle leaves its timer alone. -/
theorem under_reschedule {op : Op} {handle : String} (hadvance : ∀ millis, op ≠ .advance millis)
    (hstarts : ¬ op.Starts handle) (hstops : ¬ op.Stops handle) :
    (op.reschedule s).under handle = s.under handle := by
  cases op with
  | start handle' period =>
    rcases Nat.eq_zero_or_pos period with rfl | hperiod
    · rfl
    · have hne : handle' ≠ handle := fun h => hstarts ⟨h, hperiod⟩
      rw [reschedule_start s hperiod, s.under_start, if_neg hne]
  | stop handle' => exact (s.under_stop handle handle').trans (if_neg hstops)
  | advance millis => exact absurd rfl (hadvance millis)
  | _ => rfl

/-- A handle without a timer has none until one is started. -/
theorem under_reschedule_nil {op : Op} {handle : String} (h : s.under handle = [])
    (hstarts : ¬ op.Starts handle) : (op.reschedule s).under handle = [] := by
  by_cases hadvance : ∃ millis, op = .advance millis
  · obtain ⟨millis, rfl⟩ := hadvance
    exact (s.under_advance handle millis).trans (by rw [h]; rfl)
  · by_cases hstops : op.Stops handle
    · cases op with
      | stop handle' => exact (s.under_stop handle handle').trans (if_pos hstops)
      | _ => exact hstops.elim
    · rw [under_reschedule s (fun millis heq => hadvance ⟨millis, heq⟩) hstarts hstops, h]

theorem ahead_reschedule {s : Schedule} (h : s.Ahead) (op : Op) : (op.reschedule s).Ahead := by
  cases op with
  | start handle period =>
    rcases Nat.eq_zero_or_pos period with rfl | hperiod
    · exact h
    · rw [reschedule_start s hperiod]
      intro t ht
      rcases List.mem_append.mp ht with ht | ht
      · exact h t (List.mem_filter.mp ht).1
      · obtain rfl := List.mem_singleton.mp ht
        exact Nat.lt_add_of_pos_right hperiod
  | stop handle => exact fun t ht => h t (List.mem_filter.mp ht).1
  | advance millis =>
    intro t' ht'
    obtain ⟨t, -, rfl⟩ := List.mem_map.mp ht'
    exact t.lt_next_advance _
  | _ => exact h

theorem millis_eq_zero {op : Op} (h : ∀ millis, op ≠ .advance millis) : op.millis = 0 := by
  cases op with
  | advance millis => exact absurd rfl (h millis)
  | _ => rfl

theorem due_eq_nil {op : Op} (h : ∀ millis, op ≠ .advance millis) : op.due s = [] := by
  cases op with
  | advance millis => exact absurd rfl (h millis)
  | _ => rfl

/-- What comes due in an operation comes due after now, and by the time when it is done. -/
theorem mem_due {s : Schedule} (hs : s.Ahead) {op : Op} {x : Nat × String} (h : x ∈ op.due s) :
    s.now < x.1 ∧ x.1 ≤ (op.reschedule s).now := by
  cases op with
  | advance millis =>
    obtain ⟨t, ht, hle, hle'⟩ := Schedule.mem_due h
    exact ⟨Nat.lt_of_lt_of_le (hs t ht) hle, hle'⟩
  | _ => cases h

theorem ordered_due (op : Op) : (op.due s).Pairwise fun x y => x.1 ≤ y.1 := by
  cases op with
  | advance millis => exact s.ordered_due millis
  | _ => exact .nil

end Op

/-! ## Runs of a session -/

namespace Session

variable (s : Session)

theorem schedule_step (op : Op) : (s.step op).state.schedule = op.reschedule s.schedule :=
  (s.step_frame op).2.1

theorem flushed_append (ops more : List Op) :
    s.flushed (ops ++ more) = s.flushed ops ++ (s.after ops).flushed more := by
  induction ops generalizing s with
  | nil => rfl
  | cons op ops ih =>
    rw [List.cons_append, flushed, flushed, ih, List.append_assoc]
    rfl

theorem flushTimes_append (ops more : List Op) (handle : String) :
    s.flushTimes (ops ++ more) handle =
      s.flushTimes ops handle ++ (s.after ops).flushTimes more handle := by
  unfold flushTimes
  rw [flushed_append, List.filter_append, List.map_append]

theorem flushTimes_cons (op : Op) (ops : List Op) (handle : String) :
    s.flushTimes (op :: ops) handle =
      ((op.due s.schedule).filter (·.2 = handle)).map Prod.fst ++
        (s.step op).state.flushTimes ops handle := by
  unfold flushTimes
  rw [flushed, List.filter_append, List.map_append]

theorem now_step (op : Op) : (s.step op).state.schedule.now = s.schedule.now + op.millis := by
  rw [schedule_step, Op.now_reschedule]

theorem now_after (ops : List Op) : (s.after ops).schedule.now =
    ops.foldl (fun now op => now + op.millis) s.schedule.now := by
  induction ops generalizing s with
  | nil => rfl
  | cons op ops ih =>
    rw [List.foldl_cons, ← now_step]
    exact ih _

theorem now_le_after (ops : List Op) : s.schedule.now ≤ (s.after ops).schedule.now := by
  induction ops generalizing s with
  | nil => exact Nat.le_refl _
  | cons op ops ih => exact Nat.le_trans (s.now_step op ▸ Nat.le_add_right _ _) (ih _)

variable {s}

theorem ahead_step (hs : s.schedule.Ahead) (op : Op) : (s.step op).state.schedule.Ahead := by
  rw [schedule_step]
  exact Op.ahead_reschedule hs op

theorem lt_of_mem_flushed (hs : s.schedule.Ahead) {ops : List Op} {x : Nat × String}
    (hx : x ∈ s.flushed ops) : s.schedule.now < x.1 := by
  induction ops generalizing s with
  | nil => cases hx
  | cons op ops ih =>
    rcases List.mem_append.mp hx with hx | hx
    · exact (Op.mem_due hs hx).1
    · have hlt := ih (ahead_step hs op) hx
      rw [now_step] at hlt
      omega

theorem ordered_flushed (hs : s.schedule.Ahead) (ops : List Op) :
    (s.flushed ops).Pairwise fun x y => x.1 ≤ y.1 := by
  induction ops generalizing s with
  | nil => exact .nil
  | cons op ops ih =>
    refine List.pairwise_append.mpr ⟨op.ordered_due s.schedule, ih (ahead_step hs op), ?_⟩
    intro x hx y hy
    have hle := (Op.mem_due hs hx).2
    have hlt := lt_of_mem_flushed (ahead_step hs op) hy
    rw [schedule_step] at hlt
    omega

/-- A handle without a timer makes no flush until one is started. -/
theorem flushTimes_of_idle {handle : String} (h : s.schedule.under handle = []) {ops : List Op}
    (hops : ∀ op ∈ ops, ¬ op.Starts handle) :
    s.flushTimes ops handle = [] := by
  induction ops generalizing s with
  | nil => rfl
  | cons op ops ih =>
    have hstep : (s.step op).state.schedule.under handle = [] := by
      rw [schedule_step]
      exact Op.under_reschedule_nil s.schedule h (hops op List.mem_cons_self)
    have htimes := ih hstep fun op' hop' => hops op' (List.mem_cons_of_mem op hop')
    have hdue : (op.due s.schedule).filter (·.2 = handle) = [] := by
      cases op with
      | advance millis => exact Schedule.due_under_nil h millis
      | _ => rfl
    rw [flushTimes_cons, hdue, htimes]
    rfl

/-- A handle flushes at the times of its timer as long as that runs, if the next of them is still
ahead. -/
theorem flushTimes_of_running {handle : String} {t : Timer} (h : s.schedule.under handle = [t])
    (hnext : s.schedule.now < t.next) {ops : List Op}
    (hops : ∀ op ∈ ops, ¬ op.Starts handle ∧ ¬ op.Stops handle) :
    s.flushTimes ops handle = t.dues (s.after ops).schedule.now := by
  induction ops generalizing s t with
  | nil => exact (t.dues_of_lt hnext).symm
  | cons op ops ih =>
    have hrest : ∀ op' ∈ ops, ¬ op'.Starts handle ∧ ¬ op'.Stops handle :=
      fun op' hop' => hops op' (List.mem_cons_of_mem op hop')
    obtain ⟨hstarts, hstops⟩ := hops op List.mem_cons_self
    rw [flushTimes_cons]
    by_cases hadvance : ∃ millis, op = .advance millis
    · obtain ⟨millis, rfl⟩ := hadvance
      have hunder : (s.step (.advance millis)).state.schedule.under handle =
          [t.advance (s.schedule.now + millis)] := by
        rw [schedule_step]
        exact (s.schedule.under_advance handle millis).trans (by rw [h]; rfl)
      -- What comes due now are the times of `t` so far; the timer past them has the rest.
      rw [ih hunder (t.lt_next_advance _) hrest]
      exact (congrArg (· ++ _) (Schedule.due_under h millis)).trans
        (t.dues_split ((s.step (.advance millis)).state.now_le_after ops)).symm
    · have hne : ∀ millis, op ≠ .advance millis := fun millis heq => hadvance ⟨millis, heq⟩
      have hunder : (s.step op).state.schedule.under handle = [t] := by
        rw [schedule_step, Op.under_reschedule s.schedule hne hstarts hstops, h]
      have hnow : (s.step op).state.schedule.now < t.next := by
        rw [now_step, Op.millis_eq_zero hne]
        exact hnext
      rw [ih hunder hnow hrest, Op.due_eq_nil s.schedule hne]
      rfl

/-- A start puts the one timer under the handle. -/
theorem under_after_start (s : Session) (handle : String) {period : Nat} (h : 0 < period) :
    (s.after [.start handle period]).schedule.under handle =
      [⟨handle, period, s.schedule.now + period, h⟩] := by
  show (s.step (.start handle period)).state.schedule.under handle = _
  rw [schedule_step, Op.reschedule_start s.schedule h, Schedule.under_start, if_pos rfl]

theorem under_after_stop (s : Session) (handle : String) :
    (s.after [.stop handle]).schedule.under handle = [] :=
  (s.schedule.under_stop handle handle).trans (if_pos rfl)

/-- From a start on, a handle flushes once in each period while it is left alone. -/
theorem flushTimes_of_started (s : Session) {handle : String} {period : Nat} (h : 0 < period)
    {ops : List Op} (hops : ∀ op ∈ ops, ¬ op.Starts handle ∧ ¬ op.Stops handle) :
    (s.after [.start handle period]).flushTimes ops handle =
      (List.range (((s.after (.start handle period :: ops)).schedule.now - s.schedule.now) /
        period)).map fun k => s.schedule.now + (k + 1) * period := by
  have hnow : (s.after [.start handle period]).schedule.now = s.schedule.now :=
    s.now_after [.start handle period]
  rw [flushTimes_of_running (s.under_after_start handle h)
    (hnow ▸ Nat.lt_add_of_pos_right h) hops]
  exact Timer.dues_started handle h (s.now_le_after (.start handle period :: ops))

/-! ## The calls of an advance -/

theorem requests_flushes {σ : Type} (host : Host σ) (n : Nat) (site : σ) :
    ((flushes n).run host site).calls.map (·.request) = List.replicate n .flush := by
  induction n generalizing site with
  | zero => rfl
  | succ n ih =>
    have hone : ((Engine.flush).run host site).calls.map (·.request) = [.flush] := by
      simp only [Engine.flush, Procedure.run]
      cases (host.answer .flush site).1 <;> rfl
    simp only [flushes, run_bind, List.map_append, hone, ih]
    rfl

theorem requests_advance (s : Session) (millis : Nat) :
    (s.step (.advance millis)).calls.map (·.request) =
      (s.schedule.due millis).map fun _ => .flush := by
  rw [List.map_const']
  exact requests_flushes Site.host _ s.site

theorem flushes_add (m n : Nat) : flushes (m + n) = (flushes m).bind fun _ => flushes n := by
  induction m with
  | zero =>
    rw [Nat.zero_add]
    rfl
  | succ m ih =>
    rw [Nat.succ_add, flushes, flushes, bind_assoc, ih]

/-- What the two parts of an advance show and leave behind, one after the other, is what the whole
shows and leaves behind. -/
theorem step_advance_add (s : Session) (a b : Nat) :
    let whole := s.step (.advance (a + b))
    let first := s.step (.advance a)
    let second := first.state.step (.advance b)
    second.state = whole.state ∧ first.calls ++ second.calls = whole.calls ∧
      first.events ++ second.events = whole.events ∧ first.logs ++ second.logs = whole.logs := by
  simp only [step, advance, converse, s.schedule.due_add, s.schedule.advance_add,
    List.length_append, flushes_add, run_bind]
  exact ⟨trivial, trivial, trivial, trivial⟩

/-- What is seen of a run with an advance in two parts. -/
theorem flatMap_run_split {β : Type} (seen : Step → List β) (start : Session) (before : List Op)
    (a b : Nat) (after : List Op)
    (h : ∀ s : Session, seen (s.step (.advance a)) ++
      seen ((s.step (.advance a)).state.step (.advance b)) = seen (s.step (.advance (a + b)))) :
    (start.run (before ++ .advance a :: .advance b :: after)).flatMap seen =
      (start.run (before ++ .advance (a + b) :: after)).flatMap seen := by
  have hstate := ((start.after before).step_advance_add a b).1
  simp only [run_append, run, List.flatMap_append, List.flatMap_cons, hstate,
    ← h (start.after before), List.append_assoc]

/-- The flushes of a run depend on the schedule alone. -/
theorem flushed_congr {s s' : Session} (h : s'.schedule = s.schedule) (ops : List Op) :
    (s'.after ops).schedule = (s.after ops).schedule ∧ s'.flushed ops = s.flushed ops := by
  induction ops generalizing s s' with
  | nil => exact ⟨h, rfl⟩
  | cons op ops ih =>
    have hstep : (s'.step op).state.schedule = (s.step op).state.schedule := by
      rw [schedule_step, schedule_step, h]
    obtain ⟨hafter, hflushed⟩ := ih hstep
    refine ⟨hafter, ?_⟩
    rw [flushed, flushed, h, hflushed]

/-! ## The law -/

/-- In a run that begins without timers, they flush when they are due. -/
theorem timerLaw {start : Session} (hempty : start.schedule = .empty) (ops : List Op) :
    TimerLaw start ops := by
  have hahead : start.schedule.Ahead := by
    rw [hempty]
    exact nofun
  have hidle : ∀ handle, start.schedule.under handle = [] := by
    rw [hempty]
    exact fun handle => rfl
  constructor
  case calls => exact fun before millis after _ => requests_advance _ millis
  case clock => exact start.now_after ops
  case ordered => exact ordered_flushed hahead ops
  case running =>
    intro before handle period during after _ hperiod hduring
    have htimes := flushTimes_of_started (start.after before) hperiod hduring
    rwa [← after_append, ← after_append] at htimes
  case once =>
    rintro before handle period during after rfl hperiod hstarts hstops hafter
    have hbefore := flushTimes_of_idle (hidle handle) fun op hop =>
      hstarts op (List.mem_append_left _ (List.mem_append_left _ hop))
    have hduring := flushTimes_of_started (start.after before) hperiod fun op hop =>
      ⟨hstarts op (List.mem_append_left _ (List.mem_append_right _ hop)), hstops op hop⟩
    have hrest : ∀ s : Session, s.flushTimes after handle = [] := by
      intro s
      rcases hafter with rfl | ⟨rest, rfl⟩
      · rfl
      · exact flushTimes_of_idle (s.under_after_stop handle) fun op hop =>
          hstarts op (List.mem_append_right _ (List.mem_cons_of_mem _ hop))
    have hparts : start.flushTimes (before ++ .start handle period :: (during ++ after)) handle =
        start.flushTimes before handle ++
          (((start.after before).after [.start handle period]).flushTimes during handle ++
            (((start.after before).after [.start handle period]).after during).flushTimes after
              handle) := by
      rw [flushTimes_append, flushTimes_cons, flushTimes_append]
      rfl
    rw [hparts, hbefore, hrest, hduring, ← after_append, List.nil_append, List.append_nil]
  case stopped =>
    intro before handle during after _ hduring
    rw [after_append]
    exact flushTimes_of_idle (under_after_stop _ handle) hduring
  case others =>
    intro before op after _ hadvance handle hstarts hstops
    rw [after_append]
    show ((start.after before).step op).state.schedule.under handle = _
    rw [schedule_step]
    exact Op.under_reschedule _ hadvance hstarts hstops
  case independent => exact fun start' h => flushed_congr h ops
  case split =>
    rintro before a b after rfl
    have hstate := ((start.after before).step_advance_add a b).1
    have hsplit := fun s : Session => s.step_advance_add a b
    refine ⟨?_, ?_, flatMap_run_split _ start before a b after fun s => (hsplit s).2.1,
      flatMap_run_split _ start before a b after fun s => (hsplit s).2.2.1,
      flatMap_run_split _ start before a b after fun s => (hsplit s).2.2.2⟩
    · simp only [flushed_append, flushed, hstate, Op.due, Schedule.due_add, schedule_step,
        Op.reschedule, List.append_assoc]
    · rw [after_append, after_append]
      exact congrArg (fun s : Session => s.after after) hstate

end Session

/-- Timers flush when they are due, and nothing else makes them flush or keeps them from it. -/
theorem timer_law (limits : Thresholds) (lists : ListStore) (sink : Sink) (audit : AuditTrail)
    (historyCapacity : Nat) (ops : List Op) :
    TimerLaw (Session.create limits lists sink audit historyCapacity) ops :=
  Session.timerLaw rfl ops

end LoginAdmission
