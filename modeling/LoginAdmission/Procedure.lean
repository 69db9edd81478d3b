/-
  Procedures: what an operation does, as a conversation with the stores.

  A procedure asks its stores one request at a time and goes on with the reply, writes log lines
  and announces events, until it has a result. It knows nothing of the stores but their replies.
  `run` holds the conversation with a host, which answers the requests out of some state and hears
  the events.
-/
import LoginAdmission.LogLine

namespace LoginAdmission

/-- What a store can be asked. -/
inductive Request where
  | enumerate (list : AccessList)
  | contains (list : AccessList) (subnet : Subnet)
  | add (list : AccessList) (subnet : Subnet)
  | remove (list : AccessList) (subnet : Subnet)
  | increment (key : String)
  | set (key : String) (value : UInt64)
  | flush
deriving DecidableEq

/-- What a store answers when nothing goes wrong. -/
abbrev Request.Reply : Request → Type
  | enumerate _ => List Entry
  | contains _ _ => Bool
  | add _ _ => UInt64
  | remove _ _ => Unit
  | increment _ => UInt64
  | set _ _ => Unit
  | flush => Unit

/-- A conversation with the stores that ends with a result. -/
inductive Procedure (α : Type) where
  | done (result : α)
  | ask (request : Request) (next : Except StoreError request.Reply → Procedure α)
  | note (line : LogLine) (next : Procedure α)
  | announce (event : Event) (next : Procedure α)

/-- A request with its answer. -/
structure Call where
  request : Request
  answer : Except StoreError request.Reply

/-- Who answers requests and hears events, keeping a state of type `σ`. -/
structure Host (σ : Type) where
  answer : (request : Request) → σ → Except StoreError request.Reply × σ × List LogLine
  hear : Event → σ → σ × List LogLine

/-- How a conversation went: its result, the host's state after it, the calls made, the log lines
written and the events announced, each in order. -/
structure Transcript (σ α : Type) where
  result : α
  state : σ
  calls : List Call
  logs : List LogLine
  events : List Event

namespace Procedure

variable {α β σ : Type}

/-- Goes on with another procedure when the first is done. -/
def bind : Procedure α → (α → Procedure β) → Procedure β
  | done a, f => f a
  | ask request next, f => ask request fun answer => (next answer).bind f
  | note line next, f => note line (next.bind f)
  | announce event next, f => announce event (next.bind f)

/-- The same conversation with another result. -/
def map (f : α → β) (p : Procedure α) : Procedure β := p.bind fun a => done (f a)

/-- Asks, and fails at once when the store does. -/
def query (request : Request) (next : request.Reply → Procedure (Except Failure α)) :
    Procedure (Except Failure α) :=
  ask request fun
    | .ok reply => next reply
    | .error e => done (.error (.ofStore e))

/-- Holds the conversation with a host. -/
def run (host : Host σ) : Procedure α → σ → Transcript σ α
  | done a, s => ⟨a, s, [], [], []⟩
  | ask request next, s =>
    let (answer, s', lines) := host.answer request s
    let t := run host (next answer) s'
    { t with calls := ⟨request, answer⟩ :: t.calls, logs := lines ++ t.logs }
  | note line next, s =>
    let t := run host next s
    { t with logs := line :: t.logs }
  | announce event next, s =>
    let (s', lines) := host.hear event s
    let t := run host next s'
    { t with logs := lines ++ t.logs, events := event :: t.events }

theorem bind_assoc {γ : Type} (p : Procedure α) (f : α → Procedure β) (g : β → Procedure γ) :
    (p.bind f).bind g = p.bind fun a => (f a).bind g := by
  induction p with
  | done a => rfl
  | ask request next ih => simp only [bind, ih]
  | note line next ih => simp only [bind, ih]
  | announce event next ih => simp only [bind, ih]

theorem map_map {γ : Type} (p : Procedure α) (f : α → β) (g : β → γ) :
    (p.map f).map g = p.map fun a => g (f a) :=
  bind_assoc ..

/-- A conversation goes on from the state where its first part ends. -/
theorem run_bind (host : Host σ) (p : Procedure α) (f : α → Procedure β) (s : σ) :
    run host (p.bind f) s =
      let t := run host p s
      let u := run host (f t.result) t.state
      ⟨u.result, u.state, t.calls ++ u.calls, t.logs ++ u.logs, t.events ++ u.events⟩ := by
  induction p generalizing s with
  | done a => simp [bind, run]
  | ask request next ih => simp [bind, run, ih]
  | note line next ih => simp [bind, run, ih]
  | announce event next ih => simp [bind, run, ih]

/-- Another result changes nothing else of a conversation. -/
theorem run_map (host : Host σ) (f : α → β) (p : Procedure α) (s : σ) :
    run host (p.map f) s =
      let t := run host p s
      ⟨f t.result, t.state, t.calls, t.logs, t.events⟩ := by
  simp [map, run_bind, run]

end Procedure

end LoginAdmission
