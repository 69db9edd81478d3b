/-
  What bounded logs keep.

  A log is changed by entries that come in and by clearances. The clearances cut what comes in into
  windows, of which the last is open (`Windows`). A bounded log holds the newest entries of the open
  window and nothing else; a buffer of events counts what it dropped for want of room, which is what
  did not fit of each window. It counts with a word, so the count is right as long as a word holds
  it.

  Main statement: `bounded_log_law`, for all changes of a log and for all runs of a session. One
  entry is `Recent.shows_push`, with the next lemmas for the buffer and its count; a run is folded
  over its changes, which are those of its steps (`Session.sink_after`, `Session.history_after`).
-/
import Mathlib.Algebra.GroupWithZero.Nat
import LoginAdmission.Proofs.Control

namespace LoginAdmission

open Procedure

/-- What happens to a log: an entry comes in, or all entries are dropped. -/
inductive LogChange (α : Type) where
  | entry (a : α)
  | clearance

/-- All that came in to a log: the windows that clearances closed, and the one that is open. -/
structure Windows (α : Type) where
  closed : List (List α)
  opened : List α

namespace Windows

variable {α : Type}

/-- Nothing came in yet. -/
def empty : Windows α := ⟨[], []⟩

/-- An entry stands in the open window; a clearance closes it. -/
def change (w : Windows α) : LogChange α → Windows α
  | .entry a => { w with opened := w.opened ++ [a] }
  | .clearance => ⟨w.closed ++ [w.opened], []⟩

/-- The windows that changes leave. -/
def ofChanges (changes : List (LogChange α)) : Windows α := changes.foldl change empty

/-- How many entries did not fit, with `room` for those of one window. -/
def excess (w : Windows α) (room : Nat) : Nat :=
  ((w.closed ++ [w.opened]).map fun window => window.length - room).sum

end Windows

/-- The last `n` entries of a list, or all if it has no more. -/
def Newest {α : Type} (n : Nat) (all l : List α) : Prop :=
  l <:+ all ∧ l.length = min all.length n

/-- A change of a buffer of events. -/
def EventBuffer.change (b : EventBuffer) : LogChange Event → EventBuffer
  | .entry event => b.push event
  | .clearance => b.clear

/-- A change of a history of commands. -/
def Recent.change {α : Type} (r : Recent α) : LogChange α → Recent α
  | .entry a => r.append a
  | .clearance => r.clear

/-- What an operation drops of the events. -/
def Op.clearedEvents : Op → List (LogChange Event)
  | .clearEvents => [.clearance]
  | _ => []

namespace Session

/-- The events of a run and the clearances of their buffer, in order. -/
def eventChanges (s : Session) : List Op → List (LogChange Event)
  | [] => []
  | op :: ops =>
    (s.step op).events.map .entry ++ op.clearedEvents ++ eventChanges (s.step op).state ops

/-- What is entered into the history when a command is carried out. -/
def journalEntry (s : Session) (op : Op) (command : Command) : JournalEntry :=
  ⟨s.origin op, command.label,
    .ofResult ((Control.perform s.limits command).run Site.host s.site).result⟩

/-- What an operation does to the history. -/
def journaled (s : Session) (op : Op) : List (LogChange JournalEntry) :=
  match op, op.command? with
  | .clearHistory, _ => [.clearance]
  | _, some command => [.entry (s.journalEntry op command)]
  | _, none => []

/-- The commands of a run and the clearances of their history, in order. -/
def journal (s : Session) : List Op → List (LogChange JournalEntry)
  | [] => []
  | op :: ops => s.journaled op ++ journal (s.step op).state ops

end Session

/-- What bounded logs keep. A log that is made for no entry has room for one. -/
structure BoundedLogLaw : Prop where
  /-- A buffer holds the newest events since it was cleared, and counts those of each window that
  did not fit, if a word can hold that many. -/
  buffer : ∀ capacity changes,
    let room := max capacity 1
    let w := Windows.ofChanges changes
    let b := changes.foldl EventBuffer.change (.ofCapacity capacity)
    Newest room w.opened b.recent.items ∧
      (w.excess room < wordBound → b.evicted.toNat = w.excess room)
  /-- To clear a buffer is no loss for want of room. -/
  cleared : ∀ capacity changes,
    ((changes ++ [.clearance]).foldl EventBuffer.change (.ofCapacity capacity)).evicted =
      (changes.foldl EventBuffer.change (.ofCapacity capacity)).evicted
  /-- A history holds the newest entries since it was cleared. -/
  history : ∀ {α : Type} capacity (changes : List (LogChange α)),
    Newest (max capacity 1) (Windows.ofChanges changes).opened
      (changes.foldl Recent.change (.ofCapacity capacity)).items
  /-- Entries may as well be dropped before one comes in as afterwards. -/
  either : ∀ {α : Type} (r : Recent α) a, r.append a = r.push a
  /-- In a session the events are those that its steps announce. -/
  events : ∀ limits lists capacity audit historyCapacity ops,
    let s := Session.create limits lists (.buffer (.ofCapacity capacity)) audit historyCapacity
    let room := max capacity 1
    let w := Windows.ofChanges (s.eventChanges ops)
    ∃ items evicted, ((s.after ops).step .events).result = .events items evicted ∧
      Newest room w.opened items ∧ (w.excess room < wordBound → evicted = w.excess room)
  /-- The entries of its history are those of the commands that are carried out. -/
  commands : ∀ limits lists sink audit capacity ops,
    let s := Session.create limits lists sink audit capacity
    ∃ items, ((s.after ops).step .history).result = .history items ∧
      Newest (max capacity 1) (Windows.ofChanges (s.journal ops)).opened items

/-! ## The newest entries -/

section

variable {α : Type} {n : Nat} {all l : List α}

theorem newest_iff : Newest n all l ↔ l = all.drop (all.length - n) := by
  unfold Newest
  rw [List.suffix_iff_eq_drop]
  constructor
  · rintro ⟨hsuffix, hlength⟩
    rw [hsuffix, hlength]
    congr 1
    omega
  · rintro rfl
    have hlength : (all.drop (all.length - n)).length = min all.length n := by
      rw [List.length_drop]
      omega
    refine ⟨?_, hlength⟩
    rw [hlength]
    congr 1
    omega

/-- Where all entries fit, none is missing. -/
theorem Newest.eq_of_length_le (h : Newest n all l) (hfits : all.length ≤ n) : l = all := by
  rw [newest_iff.mp h, Nat.sub_eq_zero_of_le hfits, List.drop_zero]

theorem newest_nil (n : Nat) : Newest n ([] : List α) [] :=
  ⟨List.suffix_rfl, by simp⟩

end

/-! ## One change -/

namespace Recent

variable {α : Type} {r : Recent α} {room : Nat} {window : List α}

/-- A log with this much room holds the newest entries of a window. -/
structure Shows (r : Recent α) (room : Nat) (window : List α) : Prop where
  capacity : r.capacity = room
  items : Newest room window r.items

theorem shows_ofCapacity (capacity : Nat) :
    (ofCapacity (α := α) capacity).Shows (max capacity 1) [] :=
  ⟨rfl, newest_nil _⟩

theorem Shows.isFull_iff (h : r.Shows room window) : r.isFull = true ↔ room ≤ window.length := by
  rw [Recent.isFull_iff, h.items.2, h.capacity]
  omega

/-- The oldest entry goes when there is no room, and no other. -/
theorem Shows.push (h : r.Shows room window) (a : α) : (r.push a).Shows room (window ++ [a]) := by
  have hpos : 0 < room := h.capacity ▸ r.capacity_pos
  have hitems := newest_iff.mp h.items
  refine ⟨h.capacity, newest_iff.mpr ?_⟩
  simp only [Recent.push, List.length_append, List.length_singleton]
  by_cases hfull : r.isFull = true
  · have hlength := h.isFull_iff.mp hfull
    rw [if_pos hfull, hitems, List.drop_drop, List.drop_append_of_le_length (by omega)]
    congr 2
    omega
  · have hlength := mt h.isFull_iff.mpr hfull
    have hall : window.length - room = 0 := by omega
    have hall' : window.length + 1 - room = 0 := by omega
    rw [if_neg hfull, hitems, hall, hall', List.drop_zero, List.drop_zero]

theorem Shows.clear (h : r.Shows room window) : r.clear.Shows room [] :=
  ⟨h.capacity, newest_nil _⟩

theorem Shows.change {w : Windows α} (h : r.Shows room w.opened) (c : LogChange α) :
    (r.change c).Shows room (w.change c).opened := by
  cases c with
  | entry a =>
    rw [Recent.change, append_eq_push]
    exact h.push a
  | clearance => exact h.clear

theorem Shows.changes {w : Windows α} (h : r.Shows room w.opened) (cs : List (LogChange α)) :
    (cs.foldl Recent.change r).Shows room (cs.foldl Windows.change w).opened := by
  induction cs generalizing r w with
  | nil => exact h
  | cons c cs ih => exact ih (h.change c)

end Recent

namespace Windows

variable {α : Type} (w : Windows α) (room : Nat)

theorem excess_eq : w.excess room =
    (w.closed.map fun window => window.length - room).sum + (w.opened.length - room) := by
  simp [excess]

/-- Without a clearance there is one window, and all entries are in it. -/
theorem ofChanges_entries (l : List α) : ofChanges (l.map .entry) = ⟨[], l⟩ := by
  have hfold : ∀ w : Windows α,
      (l.map LogChange.entry).foldl change w = { w with opened := w.opened ++ l } := by
    induction l with
    | nil => exact fun w => by rw [List.append_nil]; rfl
    | cons a l ih =>
      intro w
      rw [List.map_cons, List.foldl_cons, ih]
      simp only [change, List.append_assoc, List.singleton_append]
  exact hfold empty

/-- An entry makes one more not fit when its window has filled the room. -/
theorem excess_entry (a : α) :
    (w.change (.entry a)).excess room =
      if room ≤ w.opened.length then w.excess room + 1 else w.excess room := by
  simp only [change, excess_eq, List.length_append, List.length_singleton]
  split <;> omega

theorem excess_clearance : (w.change .clearance).excess room = w.excess room := by
  simp [change, excess]

end Windows

namespace EventBuffer

variable {b : EventBuffer} {room : Nat} {w : Windows Event}

/-- A buffer with this much room after all that came in. -/
structure Follows (b : EventBuffer) (room : Nat) (w : Windows Event) : Prop where
  recent : b.recent.Shows room w.opened
  evicted : b.evicted = UInt64.ofNat (w.excess room)

theorem follows_ofCapacity (capacity : Nat) :
    (ofCapacity capacity).Follows (max capacity 1) .empty :=
  ⟨Recent.shows_ofCapacity capacity, by simp [ofCapacity, Windows.excess, Windows.empty]⟩

theorem Follows.change (h : b.Follows room w) (c : LogChange Event) :
    (b.change c).Follows room (w.change c) := by
  cases c with
  | entry event =>
    refine ⟨h.recent.push event, ?_⟩
    simp only [EventBuffer.change, push, w.excess_entry, h.recent.isFull_iff, h.evicted]
    split
    · exact (UInt64.ofNat_add ..).symm
    · rfl
  | clearance =>
    exact ⟨h.recent.clear, h.evicted.trans (congrArg UInt64.ofNat (w.excess_clearance room).symm)⟩

theorem Follows.changes (h : b.Follows room w) (cs : List (LogChange Event)) :
    (cs.foldl EventBuffer.change b).Follows room (cs.foldl Windows.change w) := by
  induction cs generalizing b w with
  | nil => exact h
  | cons c cs ih => exact ih (h.change c)

/-- The count is right as long as a word holds it. -/
theorem Follows.toNat_evicted (h : b.Follows room w) (hfew : w.excess room < wordBound) :
    b.evicted.toNat = w.excess room := by
  rw [h.evicted]
  exact UInt64.toNat_ofNat_of_lt hfew

end EventBuffer

/-! ## The logs of a session -/

/-- A sink that is a buffer takes all that is announced. -/
theorem Procedure.sink_run {α : Type} (p : Procedure α) {s : Site} {b : EventBuffer}
    (h : s.sink = .buffer b) :
    (p.run Site.host s).state.sink =
      .buffer (((p.run Site.host s).events.map LogChange.entry).foldl EventBuffer.change b) := by
  induction p generalizing s b with
  | done a => exact h
  | ask request next ih => exact ih _ h
  | note line next ih => exact ih h
  | announce event next ih =>
    have hheard : (Site.host.hear event s).1.sink = .buffer (b.push event) := by
      simp only [Site.host, h, Sink.hear]
    exact ih hheard

theorem Op.touch_buffer (op : Op) {s : Site} {b : EventBuffer} (h : s.sink = .buffer b) :
    (op.touch s).sink = .buffer (op.clearedEvents.foldl EventBuffer.change b) := by
  cases op with
  | clearEvents =>
    simp only [touch, h]
    rfl
  | insertRow | dropTable | closeDatabase | reattach => exact (s.withDatabase_frame _).2.2.trans h
  | _ => exact h

namespace Session

theorem sink_step {s : Session} {b : EventBuffer} (h : s.site.sink = .buffer b) (op : Op) :
    let changes := (s.step op).events.map LogChange.entry ++ op.clearedEvents
    (s.step op).state.site.sink = .buffer (changes.foldl EventBuffer.change b) := by
  intro changes
  obtain ⟨-, hevents, hsite⟩ := s.step_site op
  rw [hsite, List.foldl_append, hevents]
  exact op.touch_buffer ((s.talk op).sink_run h)

/-- The buffer of a session is changed by the events of its steps. -/
theorem sink_after {s : Session} {b : EventBuffer} (h : s.site.sink = .buffer b) (ops : List Op) :
    (s.after ops).site.sink = .buffer ((s.eventChanges ops).foldl EventBuffer.change b) := by
  induction ops generalizing s b with
  | nil => exact h
  | cons op ops ih =>
    rw [eventChanges, List.foldl_append]
    exact ih (sink_step h op)

/-- What a session shows of its buffer. -/
theorem result_of_buffer {s : Session} {b : EventBuffer} (h : s.site.sink = .buffer b) :
    (s.step .events).result = .events b.recent.items b.evicted.toNat := by
  simp only [step, h]
  rfl

variable (s : Session)

/-- A command that is carried out is entered into the history. -/
theorem history_execute (origin : Origin) (command : Command) :
    (s.execute origin command).state.books.history = s.books.history.append ⟨origin, command.label,
      .ofResult ((Control.perform s.limits command).run Site.host s.site).result⟩ := by
  simp only [execute, Control.run_carryOut]
  rfl

theorem history_command {op : Op} {command : Command} (h : op.command? = some command) :
    (s.step op).state.books.history = s.books.history.append (s.journalEntry op command) := by
  cases op <;> simp only [Op.command?, reduceCtorEq] at h
  case execute ticket c =>
    cases h
    exact s.history_execute (.ticket ticket) command
  case line | json =>
    rw [step, s.executeRead_of_read _ h]
    exact history_execute { s with books := { s.books with arrivals := s.books.arrivals + 1 } } _
      command

theorem history_step (op : Op) :
    (s.step op).state.books.history =
      (s.journaled op).foldl Recent.change s.books.history := by
  by_cases hclear : op = .clearHistory
  · subst hclear
    rfl
  · cases hcommand : op.command? with
    | none =>
      have hnothing : s.journaled op = [] := by
        simp only [journaled, hcommand]
      rw [s.books_step hcommand hclear, hnothing]
      rfl
    | some command =>
      have hentry : s.journaled op = [.entry (s.journalEntry op command)] := by
        simp only [journaled, hcommand]
      rw [s.history_command hcommand, hentry]
      rfl

/-- The history of a session is changed by the commands that are carried out. -/
theorem history_after (ops : List Op) :
    (s.after ops).books.history = (s.journal ops).foldl Recent.change s.books.history := by
  induction ops generalizing s with
  | nil => rfl
  | cons op ops ih =>
    rw [journal, List.foldl_append, ← s.history_step]
    exact ih _

end Session

/-- Bounded logs keep exactly the newest entries. -/
theorem bounded_log_law : BoundedLogLaw := by
  constructor
  case buffer =>
    intro capacity changes
    have h := (EventBuffer.follows_ofCapacity capacity).changes changes
    exact ⟨h.recent.items, h.toNat_evicted⟩
  case cleared =>
    intro capacity changes
    rw [List.foldl_append]
    rfl
  case history =>
    intro α capacity changes
    have hstart : (Recent.ofCapacity capacity).Shows (max capacity 1)
        (Windows.empty (α := α)).opened := Recent.shows_ofCapacity capacity
    exact (hstart.changes changes).items
  case either => exact fun r a => r.append_eq_push a
  case events =>
    intro limits lists capacity audit historyCapacity ops s room w
    have hsink := Session.sink_after (s := s) rfl ops
    have h := (EventBuffer.follows_ofCapacity capacity).changes (s.eventChanges ops)
    exact ⟨_, _, Session.result_of_buffer hsink, h.recent.items, h.toNat_evicted⟩
  case commands =>
    intro limits lists sink audit capacity ops s
    have hstart : s.books.history.Shows (max capacity 1) Windows.empty.opened :=
      Recent.shows_ofCapacity capacity
    refine ⟨_, rfl, ?_⟩
    rw [s.history_after]
    exact (hstart.changes _).items

/-- Three events came in before the clearance and one after it, with room for two. -/
example :
    let changes : List (LogChange Event) :=
      [.entry .countersFlushed, .entry .flushFailed, .entry .countersFlushed, .clearance,
        .entry .flushFailed]
    let b := changes.foldl EventBuffer.change (.ofCapacity 2)
    b.recent.items = [.flushFailed] ∧ b.evicted = 1 := by
  decide

end LoginAdmission
