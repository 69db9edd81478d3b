/-
  Procedures relay subnets: they bring none in but those that they are given.

  `Relays P` says that a procedure asks, writes down, announces and gives only subnets with the
  property `P`, as long as the replies hold no others. The operations of the engine do so, once the
  pair of an edit or of an exact query makes such a subnet; so do commands and the gate.

  Main statement: `run_relays`, which carries it over to a run at a site.
-/
import LoginAdmission.Control
import LoginAdmission.Gate
import LoginAdmission.Proofs.Provenance.Stores

namespace LoginAdmission

namespace Procedure

variable {α β : Type} [Mentions α] [Mentions β] {P : Subnet → Prop}

/-- As long as the replies hold only subnets with the property, so does all that the procedure
asks, writes down, announces and gives. -/
def Relays (P : Subnet → Prop) : Procedure α → Prop
  | done a => Only P a
  | ask request next => Only P request ∧ ∀ answer, Only P answer → (next answer).Relays P
  | note line next => Only P line ∧ next.Relays P
  | announce event next => Only P event ∧ next.Relays P

theorem relays_bind {p : Procedure α} {f : α → Procedure β} (hp : p.Relays P)
    (hf : ∀ a, Only P a → (f a).Relays P) : (p.bind f).Relays P := by
  induction p with
  | done a => exact hf a hp
  | ask request next ih => exact ⟨hp.1, fun answer h => ih answer (hp.2 answer h)⟩
  | note line next ih => exact ⟨hp.1, ih hp.2⟩
  | announce event next ih => exact ⟨hp.1, ih hp.2⟩

theorem relays_map {p : Procedure α} {f : α → β} (hp : p.Relays P)
    (hf : ∀ a, Only P a → Only P (f a)) : (p.map f).Relays P :=
  relays_bind hp hf

theorem relays_query {request : Request} {next : request.Reply → Procedure (Except Failure α)}
    (hrequest : Only P request) (hnext : ∀ reply, Only P reply → (next reply).Relays P) :
    (query request next).Relays P := by
  refine ⟨hrequest, fun answer h => ?_⟩
  cases answer with
  | ok reply => exact hnext reply h
  | error e => exact only_ofStore h

theorem relays_withInput {ι : Type} {input : Except InvalidInput ι}
    {next : ι → Procedure (Except Failure α)} (h : ∀ a, input = .ok a → (next a).Relays P) :
    (Engine.withInput input next).Relays P := by
  cases input with
  | ok a => exact h a rfl
  | error e => exact only_of_nil rfl

/-- A conversation with a site that holds such subnets only. -/
theorem run_relays {p : Procedure α} (hp : p.Relays P) {s : Site} (h : s.HoldsOnly P) :
    Only P (p.run Site.host s) ∧ (p.run Site.host s).state.HoldsOnly P := by
  simp only [only_transcript]
  induction p generalizing s with
  | done a => exact ⟨⟨hp, only_nil, only_nil, only_nil⟩, h⟩
  | ask request next ih =>
    obtain ⟨hanswer, hsite, hlines⟩ := h.answer hp.1
    obtain ⟨⟨hresult, hcalls, hlogs, hevents⟩, hstate⟩ := ih _ (hp.2 _ hanswer) hsite
    exact ⟨⟨hresult, only_cons.mpr ⟨only_call.mpr ⟨hp.1, hanswer⟩, hcalls⟩,
      only_append.mpr ⟨hlines, hlogs⟩, hevents⟩, hstate⟩
  | note line next ih =>
    obtain ⟨⟨hresult, hcalls, hlogs, hevents⟩, hstate⟩ := ih hp.2 h
    exact ⟨⟨hresult, hcalls, only_cons.mpr ⟨hp.1, hlogs⟩, hevents⟩, hstate⟩
  | announce event next ih =>
    obtain ⟨hsite, hlines⟩ := h.hear hp.1
    obtain ⟨⟨hresult, hcalls, hlogs, hevents⟩, hstate⟩ := ih hp.2 hsite
    exact ⟨⟨hresult, hcalls, only_append.mpr ⟨hlines, hlogs⟩, only_cons.mpr ⟨hp.1, hevents⟩⟩,
      hstate⟩

end Procedure

/-! ## The operations of the engine -/

namespace Engine

open Procedure

variable {P : Subnet → Prop} {list : AccessList} {ip : String} {mask : UInt8}

theorem relays_check (limits : Thresholds) (d : Dimension) (value : String) :
    (check limits d value).Relays P := by
  refine ⟨only_of_nil rfl, fun answer h => ?_⟩
  cases answer with
  | error e => exact h
  | ok count =>
    dsimp only
    split
    · exact only_of_nil rfl
    · exact ⟨only_of_nil rfl, only_of_nil rfl⟩

theorem relays_decideByRates (limits : Thresholds) (dimensions : List (Dimension × String)) :
    (decideByRates limits dimensions).Relays P := by
  induction dimensions with
  | nil => exact only_of_nil rfl
  | cons dimension rest ih =>
    refine relays_bind (relays_check limits _ _) fun checked h => ?_
    cases checked with
    | error e => exact only_ofStore h
    | ok result =>
      dsimp only
      split
      · exact ih
      · exact only_of_nil rfl

theorem relays_covers (list : AccessList) (address : Address) :
    (covers list address).Relays P :=
  relays_query (only_of_nil rfl) fun _ _ => only_of_nil rfl

theorem relays_decide (limits : Thresholds) (attempt : Attempt) (address : Address) :
    (decide limits attempt address).Relays P := by
  refine relays_bind (relays_covers .deny address) fun denied h => ?_
  match denied with
  | .error e => exact h
  | .ok true => exact only_of_nil rfl
  | .ok false =>
    refine relays_bind (relays_covers .allow address) fun allowed h => ?_
    match allowed with
    | .error e => exact h
    | .ok true => exact only_of_nil rfl
    | .ok false => exact relays_decideByRates limits _

theorem relays_evaluate (limits : Thresholds) (attempt : Attempt) :
    (evaluate limits attempt).Relays P := by
  unfold evaluate
  cases attempt.validate with
  | error e => exact only_of_nil rfl
  | ok address =>
    refine relays_bind (relays_decide limits attempt address) fun result h => ?_
    cases result with
    | error e => exact ⟨h, h⟩
    | ok d => exact ⟨only_of_nil rfl, only_of_nil rfl, only_of_nil rfl⟩

theorem relays_inList (list : AccessList) (address : String) : (inList list address).Relays P :=
  relays_withInput fun _ _ => relays_covers list _

/-- The subnet of an operation is the one that its pair makes. -/
theorem relays_add (h : ∀ s : Subnet, s.MadeOf ip mask.toNat → P s) :
    (add list ip mask).Relays P := by
  refine relays_withInput fun subnet hmake => ?_
  have hsubnet := h subnet (Subnet.make_eq_ok_iff.mp hmake)
  refine ⟨only_subnet.mpr hsubnet, fun answer hanswer => ?_⟩
  cases answer with
  | error e => exact ⟨List.forall_mem_cons.mpr ⟨hsubnet, hanswer⟩, only_ofStore hanswer⟩
  | ok id => exact ⟨only_subnet.mpr hsubnet, only_subnet.mpr hsubnet, only_of_nil rfl⟩

theorem relays_remove (h : ∀ s : Subnet, s.MadeOf ip mask.toNat → P s) :
    (remove list ip mask).Relays P := by
  refine relays_withInput fun subnet hmake => ?_
  have hsubnet := h subnet (Subnet.make_eq_ok_iff.mp hmake)
  refine ⟨only_subnet.mpr hsubnet, fun answer hanswer => ?_⟩
  cases answer with
  | error e => exact ⟨List.forall_mem_cons.mpr ⟨hsubnet, hanswer⟩, only_ofStore hanswer⟩
  | ok _ => exact ⟨only_subnet.mpr hsubnet, only_subnet.mpr hsubnet, only_of_nil rfl⟩

theorem relays_listed (h : ∀ s : Subnet, s.MadeOf ip mask.toNat → P s) :
    (listed list ip mask).Relays P := by
  refine relays_withInput fun subnet hmake => ?_
  have hsubnet := h subnet (Subnet.make_eq_ok_iff.mp hmake)
  exact relays_query (only_subnet.mpr hsubnet) fun _ _ => only_of_nil rfl

/-- An enumeration gives the entries that the store replies. -/
theorem relays_listAll (list : AccessList) : (listAll list).Relays P :=
  relays_query (only_of_nil rfl) fun _ h => h

theorem relays_resetKey (d : Dimension) (value : String) : (resetKey d value).Relays P := by
  refine ⟨only_of_nil rfl, fun answer h => ?_⟩
  cases answer with
  | error e => exact ⟨h, only_ofStore h⟩
  | ok _ => exact ⟨only_of_nil rfl, only_of_nil rfl, only_of_nil rfl⟩

theorem relays_resetLogin (login : String) : (resetLogin login).Relays P :=
  relays_withInput fun _ _ => relays_resetKey .login _

theorem relays_resetAddress (address : String) : (resetAddress address).Relays P :=
  relays_withInput fun _ _ => relays_resetKey .address address

theorem relays_flush : flush.Relays P := by
  refine ⟨only_of_nil rfl, fun answer h => ?_⟩
  cases answer with
  | error e => exact ⟨h, only_of_nil rfl, h⟩
  | ok _ => exact ⟨only_of_nil rfl, only_of_nil rfl, only_of_nil rfl⟩

theorem relays_flushCounters : flushCounters.Relays P := by
  refine relays_map relays_flush fun result h => ?_
  cases result with
  | error e => exact only_ofStore h
  | ok _ => exact only_of_nil rfl

end Engine

/-! ## Commands, the gate and the timers -/

/-- The pair that a command has as its argument. -/
def Command.argument? : Command → Option (String × UInt8)
  | add _ ip mask | remove _ ip mask | isListed _ ip mask => some (ip, mask)
  | _ => none

namespace Control

open Procedure

variable {P : Subnet → Prop}

/-- The outcome of an operation holds what its result holds. -/
theorem relays_outcome {α : Type} [Mentions α] {p : Procedure (Except Failure α)} {f : α → Outcome}
    (hp : p.Relays P) (hf : ∀ a, Only P a → Only P (f a)) : (p.map (·.map f)).Relays P := by
  refine relays_map hp fun result h => ?_
  cases result with
  | error e => exact h
  | ok a => exact hf a h

theorem relays_perform (limits : Thresholds) {command : Command}
    (h : ∀ ip mask, command.argument? = some (ip, mask) →
      ∀ s : Subnet, s.MadeOf ip mask.toNat → P s) : (perform limits command).Relays P := by
  cases command with
  | check attempt =>
    exact relays_outcome (Engine.relays_evaluate limits attempt) fun _ _ => only_of_nil rfl
  | add list ip mask =>
    exact relays_outcome (Engine.relays_add (h ip mask rfl)) fun _ _ => only_of_nil rfl
  | remove list ip mask =>
    exact relays_outcome (Engine.relays_remove (h ip mask rfl)) fun _ _ => only_of_nil rfl
  | isListed list ip mask =>
    exact relays_outcome (Engine.relays_listed (h ip mask rfl)) fun _ _ => only_of_nil rfl
  | listAll list => exact relays_outcome (Engine.relays_listAll list) fun _ h => h
  | resetLogin login =>
    exact relays_outcome (Engine.relays_resetLogin login) fun _ _ => only_of_nil rfl
  | resetAddress address =>
    exact relays_outcome (Engine.relays_resetAddress address) fun _ _ => only_of_nil rfl
  | health => exact only_of_nil rfl

/-- A command that fails leaves a text in place of the subnet. -/
theorem relays_carryOut (limits : Thresholds) (origin : Origin) {command : Command}
    (h : ∀ ip mask, command.argument? = some (ip, mask) →
      ∀ s : Subnet, s.MadeOf ip mask.toNat → P s) :
    (carryOut limits origin command).Relays P := by
  refine relays_bind (relays_perform limits h) fun result hresult => ⟨only_of_nil rfl, ?_⟩
  cases result with
  | error e => exact only_of_nil rfl
  | ok outcome => exact hresult

end Control

theorem Gate.relays_pass {P : Subnet → Prop} (limits : Thresholds) (attempt : Attempt)
    (handler : Handler) : (pass limits attempt handler).Relays P := by
  unfold pass
  split
  · exact only_of_nil rfl
  · refine Procedure.relays_map (Engine.relays_evaluate limits attempt) fun result h => ?_
    cases result with
    | error e => exact h
    | ok d =>
      unfold passage
      dsimp only
      split
      · cases handler.reply attempt <;> exact only_of_nil rfl
      · exact only_of_nil rfl

theorem Session.relays_flushes {P : Subnet → Prop} (n : Nat) : (flushes n).Relays P := by
  induction n with
  | zero => exact only_of_nil rfl
  | succ n ih => exact Procedure.relays_bind Engine.relays_flush fun _ _ => ih

end LoginAdmission
