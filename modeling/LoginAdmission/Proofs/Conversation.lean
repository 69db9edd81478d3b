/-
  What a procedure can ask and what can come of it, whatever the stores reply.

  `Asks P` says that every request of a procedure has the property `P`, in every conversation,
  `Yields P` that every result has it, and `Silent` that nothing is announced. Main statements:
  `request_of_mem_calls`, `result_of_yields` and `events_of_silent`, which carry the properties over
  to a run.
-/
import LoginAdmission.Engine

namespace LoginAdmission

namespace Procedure

variable {α β σ : Type} {P : Request → Prop}

/-- Every request of the procedure has the property, whatever is replied. -/
def Asks (P : Request → Prop) : Procedure α → Prop
  | done _ => True
  | ask request next => P request ∧ ∀ answer, (next answer).Asks P
  | note _ next => next.Asks P
  | announce _ next => next.Asks P

theorem asks_bind {p : Procedure α} {f : α → Procedure β} (hp : p.Asks P)
    (hf : ∀ a, (f a).Asks P) : (p.bind f).Asks P := by
  induction p with
  | done a => exact hf a
  | ask request next ih => exact ⟨hp.1, fun answer => ih answer (hp.2 answer)⟩
  | note line next ih => exact ih hp
  | announce event next ih => exact ih hp

theorem asks_map {p : Procedure α} (f : α → β) (hp : p.Asks P) : (p.map f).Asks P :=
  asks_bind hp fun _ => trivial

theorem asks_of_map {p : Procedure α} {f : α → β} (h : (p.map f).Asks P) : p.Asks P := by
  induction p with
  | done a => trivial
  | ask request next ih => exact ⟨h.1, fun answer => ih answer (h.2 answer)⟩
  | note line next ih => exact ih h
  | announce event next ih => exact ih h

theorem Asks.mono {Q : Request → Prop} {p : Procedure α} (hp : p.Asks P)
    (h : ∀ request, P request → Q request) : p.Asks Q := by
  induction p with
  | done a => trivial
  | ask request next ih => exact ⟨h _ hp.1, fun answer => ih answer (hp.2 answer)⟩
  | note line next ih => exact ih hp
  | announce event next ih => exact ih hp

theorem asks_query {request : Request} {next : request.Reply → Procedure (Except Failure α)}
    (hrequest : P request) (hnext : ∀ reply, (next reply).Asks P) :
    (query request next).Asks P := by
  refine ⟨hrequest, fun answer => ?_⟩
  cases answer with
  | ok reply => exact hnext reply
  | error e => trivial

theorem asks_withInput {input : Except InvalidInput α} {next : α → Procedure (Except Failure β)}
    (hnext : ∀ a, (next a).Asks P) : (Engine.withInput input next).Asks P := by
  cases input with
  | ok a => exact hnext a
  | error e => trivial

/-- The calls of a run are requests of the procedure. -/
theorem request_of_mem_calls (host : Host σ) {p : Procedure α} (hp : p.Asks P) (s : σ) :
    ∀ call ∈ (p.run host s).calls, P call.request := by
  induction p generalizing s with
  | done a => nofun
  | ask request next ih =>
    intro call hcall
    rcases List.mem_cons.mp hcall with rfl | hcall
    · exact hp.1
    · exact ih _ (hp.2 _) _ call hcall
  | note line next ih => exact ih hp s
  | announce event next ih => exact ih hp (host.hear event s).1

end Procedure

/-! ## What the operations ask -/

namespace Engine

open Procedure

variable {P : Request → Prop} {list : AccessList}

theorem asks_covers (h : P (.enumerate list)) (address : Address) :
    (covers list address).Asks P :=
  asks_query h fun _ => trivial

theorem asks_check {limits : Thresholds} {d : Dimension} {value : String}
    (h : P (.increment (d.key value))) : (check limits d value).Asks P := by
  refine ⟨h, fun answer => ?_⟩
  cases answer with
  | error e => trivial
  | ok count =>
    dsimp only
    split <;> trivial

theorem asks_decideByRates {limits : Thresholds} {dimensions : List (Dimension × String)}
    (h : ∀ p ∈ dimensions, P (.increment (p.1.key p.2))) :
    (decideByRates limits dimensions).Asks P := by
  induction dimensions with
  | nil => trivial
  | cons dimension rest ih =>
    obtain ⟨d, value⟩ := dimension
    obtain ⟨hd, hrest⟩ := List.forall_mem_cons.mp h
    refine asks_bind (asks_check hd) fun checked => ?_
    cases checked with
    | error e => trivial
    | ok result =>
      dsimp only
      split
      · exact ih hrest
      · trivial

theorem asks_decide {limits : Thresholds} {attempt : Attempt} (address : Address)
    (hlists : ∀ list, P (.enumerate list))
    (hrates : ∀ p ∈ attempt.dimensions, P (.increment (p.1.key p.2))) :
    (decide limits attempt address).Asks P := by
  refine asks_bind (asks_covers (hlists .deny) address) fun denied => ?_
  match denied with
  | .error _ | .ok true => trivial
  | .ok false =>
    refine asks_bind (asks_covers (hlists .allow) address) fun allowed => ?_
    match allowed with
    | .error _ | .ok true => trivial
    | .ok false => exact asks_decideByRates hrates

theorem asks_evaluate {limits : Thresholds} {attempt : Attempt}
    (hlists : ∀ list, P (.enumerate list))
    (hrates : ∀ p ∈ attempt.dimensions, P (.increment (p.1.key p.2))) :
    (evaluate limits attempt).Asks P := by
  unfold evaluate
  cases attempt.validate with
  | error e => trivial
  | ok address =>
    exact asks_bind (asks_decide address hlists hrates) fun result => by cases result <;> trivial

theorem asks_add (h : ∀ subnet, P (.add list subnet)) (ip : String) (mask : UInt8) :
    (add list ip mask).Asks P :=
  asks_withInput fun subnet => ⟨h subnet, fun answer => by cases answer <;> trivial⟩

theorem asks_remove (h : ∀ subnet, P (.remove list subnet)) (ip : String) (mask : UInt8) :
    (remove list ip mask).Asks P :=
  asks_withInput fun subnet => ⟨h subnet, fun answer => by cases answer <;> trivial⟩

theorem asks_listed (h : ∀ subnet, P (.contains list subnet)) (ip : String) (mask : UInt8) :
    (listed list ip mask).Asks P :=
  asks_withInput fun subnet => asks_query (h subnet) fun _ => trivial

theorem asks_listAll (h : P (.enumerate list)) : (listAll list).Asks P :=
  asks_query h fun _ => trivial

theorem asks_resetKey {d : Dimension} {value : String} (h : P (.set (d.key value) 0)) :
    (resetKey d value).Asks P :=
  ⟨h, fun answer => by cases answer <;> trivial⟩

theorem asks_resetLogin {login : String} (h : P (.set (Dimension.login.key login) 0)) :
    (resetLogin login).Asks P := by
  unfold resetLogin
  split
  · trivial
  · exact asks_resetKey h

theorem asks_resetAddress {address : String} (h : P (.set (Dimension.address.key address) 0)) :
    (resetAddress address).Asks P :=
  asks_withInput fun _ => asks_resetKey h

theorem asks_flush (h : P .flush) : flush.Asks P :=
  ⟨h, fun answer => by cases answer <;> trivial⟩

end Engine

/-! ## Results -/

namespace Procedure

variable {α β σ : Type}

/-- Every result of the procedure has the property, whatever is replied. -/
def Yields (P : α → Prop) : Procedure α → Prop
  | done a => P a
  | ask _ next => ∀ answer, (next answer).Yields P
  | note _ next => next.Yields P
  | announce _ next => next.Yields P

theorem yields_true (p : Procedure α) : p.Yields fun _ => True := by
  induction p with
  | done a => trivial
  | ask request next ih => exact ih
  | note line next ih => exact ih
  | announce event next ih => exact ih

theorem yields_bind {Q : α → Prop} {R : β → Prop} {p : Procedure α} {f : α → Procedure β}
    (hp : p.Yields Q) (hf : ∀ a, Q a → (f a).Yields R) : (p.bind f).Yields R := by
  induction p with
  | done a => exact hf a hp
  | ask request next ih => exact fun answer => ih answer (hp answer)
  | note line next ih => exact ih hp
  | announce event next ih => exact ih hp

/-- The result of a run is a result of the procedure. -/
theorem result_of_yields (host : Host σ) {Q : α → Prop} {p : Procedure α} (hp : p.Yields Q)
    (s : σ) : Q (p.run host s).result := by
  induction p generalizing s with
  | done a => exact hp
  | ask request next ih => exact ih _ (hp _) _
  | note line next ih => exact ih hp s
  | announce event next ih => exact ih hp (host.hear event s).1

/-! ## Announcements -/

/-- The procedure announces nothing, whatever is replied. -/
def Silent : Procedure α → Prop
  | done _ => True
  | ask _ next => ∀ answer, (next answer).Silent
  | note _ next => next.Silent
  | announce _ _ => False

theorem silent_bind {p : Procedure α} {f : α → Procedure β} (hp : p.Silent)
    (hf : ∀ a, (f a).Silent) : (p.bind f).Silent := by
  induction p with
  | done a => exact hf a
  | ask request next ih => exact fun answer => ih answer (hp answer)
  | note line next ih => exact ih hp
  | announce event next ih => exact hp.elim

theorem silent_query {request : Request} {next : request.Reply → Procedure (Except Failure α)}
    (hnext : ∀ reply, (next reply).Silent) : (query request next).Silent := by
  intro answer
  cases answer with
  | ok reply => exact hnext reply
  | error e => trivial

/-- A run of a silent procedure announces nothing. -/
theorem events_of_silent (host : Host σ) {p : Procedure α} (hp : p.Silent) (s : σ) :
    (p.run host s).events = [] := by
  induction p generalizing s with
  | done a => rfl
  | ask request next ih => exact ih _ (hp _) _
  | note line next ih => exact ih hp s
  | announce event next ih => exact hp.elim

end Procedure

namespace Engine

open Procedure

theorem silent_check (limits : Thresholds) (d : Dimension) (value : String) :
    (check limits d value).Silent := by
  intro answer
  cases answer with
  | error e => trivial
  | ok count =>
    dsimp only
    split <;> trivial

theorem silent_decideByRates (limits : Thresholds) (dimensions : List (Dimension × String)) :
    (decideByRates limits dimensions).Silent := by
  induction dimensions with
  | nil => trivial
  | cons dimension rest ih =>
    refine silent_bind (silent_check limits _ _) fun checked => ?_
    cases checked with
    | error e => trivial
    | ok result =>
      dsimp only
      split
      · exact ih
      · trivial

theorem silent_covers (list : AccessList) (address : Address) : (covers list address).Silent :=
  silent_query fun _ => trivial

theorem silent_inList (list : AccessList) (address : String) : (inList list address).Silent := by
  unfold inList withInput
  cases Address.parse address with
  | error e => trivial
  | ok a => exact silent_covers list a

theorem silent_listed (list : AccessList) (ip : String) (mask : UInt8) :
    (listed list ip mask).Silent := by
  unfold listed withInput
  cases Subnet.make ip mask with
  | error e => trivial
  | ok subnet => exact silent_query fun _ => trivial

theorem silent_listAll (list : AccessList) : (listAll list).Silent := silent_query fun _ => trivial

/-- A decision is reached without a word; it is announced once it stands. -/
theorem silent_decide (limits : Thresholds) (attempt : Attempt) (address : Address) :
    (decide limits attempt address).Silent := by
  refine silent_bind (silent_covers .deny address) fun denied => ?_
  match denied with
  | .error _ | .ok true => trivial
  | .ok false =>
    refine silent_bind (silent_covers .allow address) fun allowed => ?_
    match allowed with
    | .error _ | .ok true => trivial
    | .ok false => exact silent_decideByRates limits _

end Engine

end LoginAdmission
