/-
  What lies behind an operation, and what it may ask of the stores.

  `Op.behind` is the operation that a command, or a request at the gate, comes down to; it does the
  same at the stores (`Session.step_behind`). `Op.MayAsk` lists the requests of each operation, so
  that a statement on what is asked needs no look at its conversation.

  Main statement: `Session.asks_behind`.
-/
import LoginAdmission.Proofs.Control
import LoginAdmission.Proofs.Conversation

namespace LoginAdmission

open Procedure

/-- What an operation comes down to: a command to the operation that it stands for, a request at the
gate to its evaluation, and one that comes to nothing to an operation that only looks. -/
def Op.behind : Op → Op
  | .gate attempt handler => if handler.isReady then .evaluate attempt else .limits
  | op => op.plain

/-- What an operation may ask of the stores, if it is no command and no request at the gate. -/
inductive Op.MayAsk : Op → Request → Prop
  | lists {attempt : Attempt} (list : AccessList) : MayAsk (.evaluate attempt) (.enumerate list)
  | count {attempt : Attempt} {p : Dimension × String} (hp : p ∈ attempt.dimensions) :
    MayAsk (.evaluate attempt) (.increment (p.1.key p.2))
  | inList {list : AccessList} {address : String} : MayAsk (.inList list address) (.enumerate list)
  | add {list : AccessList} {ip : String} {mask : UInt8} (subnet : Subnet) :
    MayAsk (.add list ip mask) (.add list subnet)
  | remove {list : AccessList} {ip : String} {mask : UInt8} (subnet : Subnet) :
    MayAsk (.remove list ip mask) (.remove list subnet)
  | listed {list : AccessList} {ip : String} {mask : UInt8} (subnet : Subnet) :
    MayAsk (.listed list ip mask) (.contains list subnet)
  | listAll {list : AccessList} : MayAsk (.listAll list) (.enumerate list)
  | resetLogin {login : String} : MayAsk (.resetLogin login) (.set (Dimension.login.key login) 0)
  | resetAddress {address : String} :
    MayAsk (.resetAddress address) (.set (Dimension.address.key address) 0)
  | flush : MayAsk .flush .flush
  | due {millis : Nat} : MayAsk (.advance millis) .flush
  | check {d : Dimension} {value : String} : MayAsk (.check d value) (.increment (d.key value))

/-! ## Behind an operation -/

namespace Op

theorem behind_of_not_gate {op : Op} (h : ∀ attempt handler, op ≠ .gate attempt handler) :
    op.behind = op.plain := by
  cases op with
  | gate attempt handler => exact absurd rfl (h attempt handler)
  | _ => rfl

theorem command?_plain (op : Op) : op.plain.command? = none := by
  unfold plain
  cases h : op.command? with
  | none => exact h
  | some command => cases command <;> rfl

theorem plain_ne_gate {op : Op} (h : ∀ attempt handler, op ≠ .gate attempt handler) :
    ∀ attempt handler, op.plain ≠ .gate attempt handler := by
  unfold plain
  cases op.command? with
  | none => exact h
  | some command => cases command <;> nofun

/-- Behind an operation is neither a command nor a request at the gate. -/
theorem direct_behind (op : Op) :
    op.behind.command? = none ∧ ∀ attempt handler, op.behind ≠ .gate attempt handler := by
  by_cases hgate : ∃ attempt handler, op = .gate attempt handler
  · obtain ⟨attempt, handler, rfl⟩ := hgate
    simp only [behind]
    split <;> exact ⟨rfl, nofun⟩
  · have hnot : ∀ attempt handler, op ≠ .gate attempt handler :=
      fun attempt handler heq => hgate ⟨attempt, handler, heq⟩
    rw [behind_of_not_gate hnot]
    exact ⟨command?_plain op, plain_ne_gate hnot⟩

/-- What is behind an operation is the operation or what its command stands for, unless it is an
evaluation or only looks. -/
theorem plain_of_behind {op b : Op} (h : op.behind = b)
    (hevaluate : ∀ attempt, b ≠ .evaluate attempt) (hlooks : b ≠ .limits) : op.plain = b := by
  by_cases hgate : ∃ attempt handler, op = .gate attempt handler
  · obtain ⟨attempt, handler, rfl⟩ := hgate
    simp only [behind] at h
    split at h
    · exact absurd h.symm (hevaluate attempt)
    · exact absurd h.symm hlooks
  · rw [← h, behind_of_not_gate fun attempt handler heq => hgate ⟨attempt, handler, heq⟩]

/-- An operation that no command stands for is done under its own name. -/
theorem eq_of_plain {op b : Op} (h : op.plain = b) (hlooks : b ≠ .limits)
    (hcommand : ∀ command : Command, command.operation ≠ some b) : op = b := by
  unfold plain at h
  split at h
  · next command hread =>
    cases hoperation : command.operation with
    | none =>
      rw [hoperation] at h
      exact absurd h.symm hlooks
    | some plain =>
      rw [hoperation] at h
      exact absurd (hoperation.trans (congrArg some h)) (hcommand command)
  · exact h

end Op

namespace Session

variable (s : Session)

theorem talk_behind (op : Op) : s.talk op.behind = s.talk op ∧ op.behind.touch = op.touch := by
  by_cases hgate : ∃ attempt handler, op = .gate attempt handler
  · obtain ⟨attempt, handler, rfl⟩ := hgate
    by_cases hready : handler.isReady = true
    · simp only [Op.behind, if_pos hready, talk, Gate.pass_of_ready hready, map_map]
      exact ⟨trivial, rfl⟩
    · obtain ⟨text, htext⟩ := Handler.exists_of_not_isReady hready
      simp only [Op.behind, if_neg hready, talk, Gate.pass_of_unready htext]
      exact ⟨rfl, rfl⟩
  · rw [Op.behind_of_not_gate fun attempt handler heq => hgate ⟨attempt, handler, heq⟩]
    exact ⟨(s.talk_plain op).1, (s.talk_plain op).2.1⟩

/-- The operation behind another does the same at the stores and announces the same. -/
theorem step_behind (op : Op) :
    (s.step op.behind).calls = (s.step op).calls ∧
      (s.step op.behind).events = (s.step op).events ∧
      (s.step op.behind).state.site = (s.step op).state.site := by
  obtain ⟨hcalls, hevents, hsite⟩ := s.step_site op
  obtain ⟨hcalls', hevents', hsite'⟩ := s.step_site op.behind
  obtain ⟨htalk, htouch⟩ := s.talk_behind op
  rw [htalk] at hcalls' hevents' hsite'
  rw [htouch] at hsite'
  exact ⟨hcalls'.trans hcalls.symm, hevents'.trans hevents.symm, hsite'.trans hsite.symm⟩

/-! ## What is asked -/

/-- A text that is no command is not talked about. -/
theorem talkRead_of_unread {ε : Type} {read : Except ε Command} (describe : ε → CommandError)
    (h : read.toOption = none) : s.talkRead (read.mapError describe) = done () := by
  cases read <;> cases h
  rfl

theorem asks_flushes {P : Request → Prop} (h : P .flush) (n : Nat) : (flushes n).Asks P := by
  induction n with
  | zero => trivial
  | succ n ih => exact asks_bind (Engine.asks_flush h) fun _ => ih

theorem asks_direct {op : Op} (hcommand : op.command? = none)
    (hgate : ∀ attempt handler, op ≠ .gate attempt handler) : (s.talk op).Asks op.MayAsk := by
  cases op with
  | gate attempt handler => exact absurd rfl (hgate attempt handler)
  | execute ticket command => cases hcommand
  | line | json =>
    rw [talk, s.talkRead_of_unread _ hcommand]
    trivial
  | evaluate attempt => exact asks_map _ (Engine.asks_evaluate .lists fun _ => .count)
  | inList => exact asks_map _ (asks_withInput (Engine.asks_covers .inList))
  | add => exact asks_map _ (Engine.asks_add .add ..)
  | remove => exact asks_map _ (Engine.asks_remove .remove ..)
  | listed => exact asks_map _ (Engine.asks_listed .listed ..)
  | listAll => exact asks_map _ (Engine.asks_listAll .listAll)
  | resetLogin => exact asks_map _ (Engine.asks_resetLogin .resetLogin)
  | resetAddress => exact asks_map _ (Engine.asks_resetAddress .resetAddress)
  | flush => exact asks_map _ (asks_map _ (Engine.asks_flush .flush))
  | check => exact asks_map _ (Engine.asks_check .check)
  | advance => exact asks_flushes .due _
  | _ => trivial

/-- What an operation asks is told by the one behind it. -/
theorem asks_behind (op : Op) : (s.talk op).Asks op.behind.MayAsk := by
  obtain ⟨hcommand, hgate⟩ := op.direct_behind
  rw [← (s.talk_behind op).1]
  exact s.asks_direct hcommand hgate

theorem mayAsk_of_mem_calls {op : Op} {call : Call} (h : call ∈ (s.step op).calls) :
    op.behind.MayAsk call.request := by
  rw [(s.step_site op).1] at h
  exact request_of_mem_calls Site.host (s.asks_behind op) s.site call h

end Session

end LoginAdmission
