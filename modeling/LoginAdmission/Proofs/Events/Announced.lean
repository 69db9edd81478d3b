/-
  What is announced: each step tells what its operation did, and nothing else is told.

  `Op.tells` reads what is to be told of a step off its answer; of a command, or of a request at the
  gate, what is to be told of the operation behind it. Main statements:
  `Session.announced_eq_tidings`, for a run of any operations on any session, and
  `Session.result_events_of_room`, that a buffer shows all that was announced if it had room and was
  not cleared.
-/
import LoginAdmission.Proofs.BoundedLogs
import LoginAdmission.Proofs.Consultation

namespace LoginAdmission

open Procedure

/-! ## What is to be told -/

/-- What is to be told of a flush. -/
def Call.flushEvent? : Call → Option Event
  | ⟨.flush, .ok _⟩ => some .countersFlushed
  | ⟨.flush, .error _⟩ => some .flushFailed
  | _ => none

/-- The event about the subnet of an address and a mask, if they make one. -/
def Event.ofPair (make : Subnet → Event) (ip : String) (mask : UInt8) : List Event :=
  match Subnet.make ip mask with
  | .ok subnet => [make subnet]
  | .error _ => []

theorem Event.ofPair_ok (make : Subnet → Event) {ip : String} {mask : UInt8} {subnet : Subnet}
    (h : Subnet.make ip mask = .ok subnet) : ofPair make ip mask = [make subnet] := by
  rw [ofPair, h]

/-- What is to be told of a step: the decision of an evaluation, the change that an edit made, the
reset of a counter, and the end of each flush, good or bad. -/
def Op.tells (op : Op) (t : Session.Step) : List Event :=
  match op, t.result with
  | .evaluate _, .decision d => [.evaluated d]
  | .add list ip mask, .added id => Event.ofPair (.added list · id) ip mask
  | .remove list ip mask, .done => Event.ofPair (.removed list) ip mask
  | .resetLogin _, .done => [.counterReset .login]
  | .resetAddress _, .done => [.counterReset .address]
  | .flush, .done => [.countersFlushed]
  | .flush, .failed _ => [.flushFailed]
  | .advance _, _ => t.calls.filterMap Call.flushEvent?
  | _, _ => []

namespace Session

/-- All events of a run, in order. -/
def announced (s : Session) (ops : List Op) : List Event := (s.run ops).flatMap (·.events)

/-- All that is to be told of a run, in order: of each operation what is to be told of the one
behind it, done in its place. -/
def tidings (s : Session) : List Op → List Event
  | [] => []
  | op :: ops => op.behind.tells (s.step op.behind) ++ tidings (s.step op).state ops

end Session

/-! ## What the operations announce -/

namespace Engine

/-- An evaluation announces its decision, and no failure. -/
theorem events_evaluate {σ : Type} (host : Host σ) (limits : Thresholds) (attempt : Attempt)
    (s : σ) : ((evaluate limits attempt).run host s).events =
      Event.ofEvaluation ((evaluate limits attempt).run host s).result := by
  rcases attempt.faulty_or_comesFrom with ⟨e, he⟩ | ⟨address, haddress⟩
  · rw [he.refused host limits s]
    rfl
  · exact (trail_evaluate host haddress.validate s).2

end Engine

namespace Session

/-- The flushes of the timers tell how each of them ended. -/
theorem events_flushes (n : Nat) (site : Site) :
    ((flushes n).run Site.host site).events =
      ((flushes n).run Site.host site).calls.filterMap Call.flushEvent? := by
  induction n generalizing site with
  | zero => rfl
  | succ n ih =>
    simp only [flushes, run_bind, List.filterMap_append, ih]
    congr 1
    simp only [Engine.flush, Procedure.run]
    cases (Site.host.answer .flush site).1 <;> rfl

variable (s : Session) {op : Op}

theorem events_of_silent_talk (h : (s.talk op).Silent) : (s.step op).events = [] :=
  (s.step_site op).2.1.trans (events_of_silent Site.host h s.site)

theorem events_add (list : AccessList) (ip : String) (mask : UInt8) :
    let op : Op := .add list ip mask
    (s.step op).events = op.tells (s.step op) := by
  simp only [step, converse, Engine.add, Engine.withInput]
  cases hsubnet : Subnet.make ip mask with
  | error e => rfl
  | ok subnet =>
    simp only [Procedure.run]
    cases (Site.host.answer (.add list subnet) s.site).1 with
    | error e => rfl
    | ok id => exact (Event.ofPair_ok (.added list · id) hsubnet).symm

theorem events_remove (list : AccessList) (ip : String) (mask : UInt8) :
    let op : Op := .remove list ip mask
    (s.step op).events = op.tells (s.step op) := by
  simp only [step, converse, Engine.remove, Engine.withInput]
  cases hsubnet : Subnet.make ip mask with
  | error e => rfl
  | ok subnet =>
    simp only [Procedure.run]
    cases (Site.host.answer (.remove list subnet) s.site).1 with
    | error e => rfl
    | ok removed => exact (Event.ofPair_ok (.removed list) hsubnet).symm

theorem events_resetLogin (login : String) :
    let op : Op := .resetLogin login
    (s.step op).events = op.tells (s.step op) := by
  simp only [step, converse, Engine.resetLogin]
  cases (if login.isEmpty then .error .emptyLogin else .ok login : Except InvalidInput String) with
  | error e => rfl
  | ok login =>
    simp only [Engine.withInput, Engine.resetKey, Procedure.run]
    cases (Site.host.answer (.set (Dimension.login.key login) 0) s.site).1 <;> rfl

theorem events_resetAddress (address : String) :
    let op : Op := .resetAddress address
    (s.step op).events = op.tells (s.step op) := by
  simp only [step, converse, Engine.resetAddress]
  cases Address.parse address with
  | error e => rfl
  | ok a =>
    simp only [Engine.withInput, Engine.resetKey, Procedure.run]
    cases (Site.host.answer (.set (Dimension.address.key address) 0) s.site).1 <;> rfl

theorem events_flush : (s.step .flush).events = Op.tells .flush (s.step .flush) := by
  simp only [step, converse, Engine.flushCounters, run_map, Engine.flush, Procedure.run]
  cases (Site.host.answer .flush s.site).1 <;> rfl

/-- A step tells just what is to be told of it. -/
theorem events_direct (hcommand : op.command? = none)
    (hgate : ∀ attempt handler, op ≠ .gate attempt handler) :
    (s.step op).events = op.tells (s.step op) := by
  cases op with
  | gate attempt handler => exact absurd rfl (hgate attempt handler)
  | execute ticket command => cases hcommand
  | line | json =>
    refine s.events_of_silent_talk ?_
    rw [talk, s.talkRead_of_unread _ hcommand]
    trivial
  | evaluate attempt =>
    simp only [step, converse, Engine.events_evaluate, Op.tells]
    cases ((Engine.evaluate s.limits attempt).run Site.host s.site).result <;> rfl
  | add list ip mask => exact s.events_add list ip mask
  | remove list ip mask => exact s.events_remove list ip mask
  | resetLogin login => exact s.events_resetLogin login
  | resetAddress address => exact s.events_resetAddress address
  | flush => exact s.events_flush
  | advance millis => exact events_flushes _ s.site
  | inList => exact s.events_of_silent_talk (silent_bind (Engine.silent_inList ..) fun _ => trivial)
  | listed => exact s.events_of_silent_talk (silent_bind (Engine.silent_listed ..) fun _ => trivial)
  | listAll =>
    exact s.events_of_silent_talk (silent_bind (Engine.silent_listAll _) fun _ => trivial)
  | check d value =>
    have hsilent := Engine.silent_check s.limits d value
    exact s.events_of_silent_talk (silent_bind hsilent fun _ => trivial)
  | _ => exact s.events_of_silent_talk trivial

/-- Every step tells just what is to be told of the operation behind it. -/
theorem events_step (op : Op) : (s.step op).events = op.behind.tells (s.step op.behind) := by
  obtain ⟨hcommand, hgate⟩ := op.direct_behind
  rw [← (s.step_behind op).2.1]
  exact s.events_direct hcommand hgate

/-- All that is announced is what is to be told. -/
theorem announced_eq_tidings (ops : List Op) : s.announced ops = s.tidings ops := by
  induction ops generalizing s with
  | nil => rfl
  | cons op ops ih =>
    calc s.announced (op :: ops)
        = (s.step op).events ++ (s.step op).state.announced ops := List.flatMap_cons
      _ = s.tidings (op :: ops) := by rw [s.events_step, ih, tidings]

end Session

/-! ## What a buffer shows -/

namespace Session

variable {s : Session} {ops : List Op}

/-- Where the buffer is not cleared, all that happens to it is what is announced. -/
theorem eventChanges_of_uncleared (hops : .clearEvents ∉ ops) :
    s.eventChanges ops = (s.announced ops).map .entry := by
  induction ops generalizing s with
  | nil => rfl
  | cons op ops ih =>
    have hop : op.clearedEvents = [] := by
      cases op with
      | clearEvents => exact absurd List.mem_cons_self hops
      | _ => rfl
    have hannounced : s.announced (op :: ops) =
        (s.step op).events ++ (s.step op).state.announced ops := List.flatMap_cons
    rw [eventChanges, hop, List.append_nil, ih fun hmem => hops (List.mem_cons_of_mem op hmem),
      hannounced, List.map_append]

/-- Where the buffer is not cleared, all that was announced came in to one window. -/
theorem follows_announced (capacity : Nat) (hops : .clearEvents ∉ ops) :
    ((s.eventChanges ops).foldl EventBuffer.change (.ofCapacity capacity)).Follows
      (max capacity 1) ⟨[], s.announced ops⟩ := by
  have hfollows := (EventBuffer.follows_ofCapacity capacity).changes (s.eventChanges ops)
  rw [eventChanges_of_uncleared hops] at hfollows ⊢
  exact Windows.ofChanges_entries (s.announced ops) ▸ hfollows

/-- A buffer with room for all that was announced shows it, and counts no loss. -/
theorem result_events_of_room {capacity : Nat}
    (h : s.site.sink = .buffer (.ofCapacity capacity)) (hops : .clearEvents ∉ ops)
    (hroom : (s.announced ops).length ≤ max capacity 1) :
    ((s.after ops).step .events).result = .events (s.announced ops) 0 := by
  have hfollows := s.follows_announced capacity hops
  have hevicted := hfollows.evicted
  rw [Windows.excess_eq, List.map_nil, List.sum_nil, Nat.zero_add,
    Nat.sub_eq_zero_of_le hroom] at hevicted
  rw [result_of_buffer (sink_after h ops), hfollows.recent.items.eq_of_length_le hroom, hevicted]
  rfl

/-- A buffer that counts no loss shows all that was announced, unless its count began anew. -/
theorem result_events {capacity : Nat} (h : s.site.sink = .buffer (.ofCapacity capacity))
    (hops : .clearEvents ∉ ops) :
    ∃ items evicted, ((s.after ops).step .events).result = .events items evicted ∧
      ((s.announced ops).length < wordBound → evicted = 0 → items = s.announced ops) := by
  have hfollows := s.follows_announced capacity hops
  refine ⟨_, _, result_of_buffer (sink_after h ops), fun hfew hevicted => ?_⟩
  have hexcess : Windows.excess ⟨[], s.announced ops⟩ (max capacity 1) =
      (s.announced ops).length - max capacity 1 := by
    rw [Windows.excess_eq, List.map_nil, List.sum_nil, Nat.zero_add]
  have hcount := hfollows.toNat_evicted (by omega)
  rw [hexcess, hevicted] at hcount
  exact hfollows.recent.items.eq_of_length_le (Nat.le_of_sub_eq_zero hcount.symm)

end Session

end LoginAdmission
