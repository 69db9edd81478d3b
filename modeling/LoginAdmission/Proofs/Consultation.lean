/-
  Evaluations over any stores: whom an evaluation asks, and what it makes of the replies.

  Nothing is assumed of who answers. `Attempt.requests` are the requests that an evaluation may
  make, in order; `Call.Decides` says what a reply settles on its own. `Trail` follows the requests
  up to the first call that fails or decides. `Engine.trail_decide` is the one look at how decisions
  are reached; everything else is read off the trail.

  Main statement: `evaluation_law`.
-/
import Mathlib.Data.List.Nodup
import LoginAdmission.Proofs.Address.Blocks
import LoginAdmission.Proofs.Address.Dotted
import LoginAdmission.Proofs.Counting.Evaluation

namespace LoginAdmission

open Procedure

/-! ## Attempts and calls -/

namespace Attempt

/-- What is wrong with an attempt: the first fault in the order of login, password, address. -/
inductive Faulty (attempt : Attempt) : InvalidInput → Prop
  | noLogin : attempt.login = "" → Faulty attempt .emptyLogin
  | noPassword : attempt.login ≠ "" → attempt.password = "" → Faulty attempt .emptyPassword
  | noAddress : attempt.login ≠ "" → attempt.password ≠ "" → attempt.address = "" →
    Faulty attempt .emptyAddress
  | badAddress : attempt.login ≠ "" → attempt.password ≠ "" → attempt.address ≠ "" →
    (∀ a : Address, attempt.address ≠ a.text) →
    Faulty attempt (.malformedAddress attempt.address)

/-- The attempt is complete and gives this address in dotted form. -/
structure ComesFrom (attempt : Attempt) (address : Address) : Prop where
  login : attempt.login ≠ ""
  password : attempt.password ≠ ""
  address : attempt.address = address.text

/-- What an evaluation may ask the stores, in this order. -/
def requests (attempt : Attempt) : List Request :=
  [.enumerate .deny, .enumerate .allow, .increment (Dimension.login.key attempt.login),
    .increment (Dimension.password.key attempt.password),
    .increment (Dimension.address.key attempt.address)]

end Attempt

/-- What a list decides about the addresses that it covers. -/
def AccessList.decision : AccessList → Decision
  | .allow => ⟨true, .allowlisted⟩
  | .deny => ⟨false, .denylisted⟩

namespace Call

/-- The store failed. -/
def Fails (c : Call) : Prop := ∃ e, c.answer = .error e

/-- The reply alone decides the attempt: a list covers the address, or a count is over its limit. -/
def Decides (limits : Thresholds) (attempt : Attempt) (address : Address) (d : Decision) :
    Call → Prop
  | ⟨.enumerate list, .ok entries⟩ =>
    d = list.decision ∧ ∃ e ∈ entries, e.subnet.contains address = true
  | ⟨.increment key, .ok count⟩ =>
    ∃ p ∈ attempt.dimensions, key = p.1.key p.2 ∧ limits.limit p.1 < count ∧
      d = ⟨false, p.1.reason⟩
  | _ => False

/-- The call ends an evaluation. -/
def Ends (limits : Thresholds) (attempt : Attempt) (address : Address) (c : Call) : Prop :=
  c.Fails ∨ ∃ d, c.Decides limits attempt address d

end Call

/-- Among the calls is a snapshot of the list that covers the address. -/
def CoversIn (calls : List Call) (list : AccessList) (address : Address) : Prop :=
  ∃ entries, (⟨.enumerate list, .ok entries⟩ : Call) ∈ calls ∧
    ∃ e ∈ entries, e.subnet.contains address = true

/-- Among the calls is a count of the value that is within its limit. -/
def WithinIn (calls : List Call) (limits : Thresholds) (p : Dimension × String) : Prop :=
  ∃ count, (⟨.increment (p.1.key p.2), .ok count⟩ : Call) ∈ calls ∧ count ≤ limits.limit p.1

/-- What is announced of an evaluation: the decision, if there is one. -/
def Event.ofEvaluation : Except Failure Decision → List Event
  | .ok d => [.evaluated d]
  | .error _ => []

/-- A host whose counters are moved by increments only: one that succeeds leaves its counter at the
count that it returns, one that fails changes nothing. -/
structure Host.Counting {σ : Type} (host : Host σ) (count : σ → String → UInt64) : Prop where
  enumerate : ∀ list s, count (host.answer (.enumerate list) s).2.1 = count s
  failed : ∀ key s e, (host.answer (.increment key) s).1 = .error e →
    count (host.answer (.increment key) s).2.1 = count s
  counted : ∀ key s n, (host.answer (.increment key) s).1 = .ok n → ∀ other,
    count (host.answer (.increment key) s).2.1 other = if key = other then n else count s other
  heard : ∀ event s, count (host.hear event s).1 = count s

/-! ## The law -/

/-- How the evaluation of a valid attempt from an address goes. -/
structure Consulted {σ : Type} (limits : Thresholds) (attempt : Attempt) (address : Address)
    (r : Transcript σ (Except Failure Decision)) : Prop where
  /-- The requests are made in their order, from the first on. -/
  asked : r.calls.map (·.request) <+: attempt.requests
  /-- The first call that fails or decides is the last. -/
  ended : ∀ before c after, r.calls = before ++ c :: after → c.Ends limits attempt address →
    after = []
  /-- Without such a call all requests are made. -/
  exhausted : (∀ c ∈ r.calls, ¬ c.Ends limits attempt address) →
    r.calls.map (·.request) = attempt.requests
  /-- The error of a call is the result, and is not announced. -/
  failed : ∀ c ∈ r.calls, ∀ e, c.answer = .error e →
    r.result = .error (.ofStore e) ∧ r.events = []
  /-- What a reply decides is the result. -/
  decided : ∀ c ∈ r.calls, ∀ d, c.Decides limits attempt address d → r.result = .ok d
  /-- An attempt that no reply decides passes. -/
  passed : (∀ c ∈ r.calls, ¬ c.Ends limits attempt address) → r.result = .ok ⟨true, .passed⟩
  /-- If no call fails there is a decision, it is announced once, and it allows the attempt just
  when the deny list does not cover the address, and the allow list does or all counts are within
  their limits. -/
  answered : (∀ c ∈ r.calls, ¬ c.Fails) →
    ∃ d : Decision, r.result = .ok d ∧ r.events = [.evaluated d] ∧
      (d.allowed = true ↔ ¬ CoversIn r.calls .deny address ∧
        (CoversIn r.calls .allow address ∨ ∀ p ∈ attempt.dimensions, WithinIn r.calls limits p))

/-- How any evaluation goes. -/
structure EvaluationLaw {σ : Type} (host : Host σ) (limits : Thresholds) (attempt : Attempt)
    (s : σ) : Prop where
  /-- An attempt is faulty, or it comes from an address. -/
  valid : (∃ e, attempt.Faulty e) ∨ ∃ address, attempt.ComesFrom address
  /-- A faulty attempt fails before anything is asked, written down or announced. -/
  refused : ∀ e, attempt.Faulty e →
    (Engine.evaluate limits attempt).run host s = ⟨.error (.invalid e), s, [], [], []⟩
  /-- Any other attempt is decided by the stores. -/
  consulted : ∀ address, attempt.ComesFrom address →
    Consulted limits attempt address ((Engine.evaluate limits attempt).run host s)
  /-- The counters are changed by the increments that succeed and by nothing else. -/
  counters : ∀ count, host.Counting count → ∀ key,
    let r := (Engine.evaluate limits attempt).run host s
    (∀ n, (⟨.increment key, .ok n⟩ : Call) ∈ r.calls → count r.state key = n) ∧
      ((∀ n, (⟨.increment key, .ok n⟩ : Call) ∉ r.calls) → count r.state key = count s key)

/-! ## Validation -/

namespace Attempt

variable {attempt : Attempt}

theorem faulty_or_comesFrom (attempt : Attempt) :
    (∃ e, attempt.Faulty e) ∨ ∃ address, attempt.ComesFrom address := by
  by_cases hlogin : attempt.login = ""
  · exact .inl ⟨_, .noLogin hlogin⟩
  by_cases hpassword : attempt.password = ""
  · exact .inl ⟨_, .noPassword hlogin hpassword⟩
  by_cases haddress : ∃ a : Address, attempt.address = a.text
  · obtain ⟨a, ha⟩ := haddress
    exact .inr ⟨a, hlogin, hpassword, ha⟩
  · have hnone : ∀ a : Address, attempt.address ≠ a.text := fun a ha => haddress ⟨a, ha⟩
    by_cases hempty : attempt.address = ""
    · exact .inl ⟨_, .noAddress hlogin hpassword hempty⟩
    · exact .inl ⟨_, .badAddress hlogin hpassword hempty hnone⟩

theorem ComesFrom.validate {address : Address} (h : attempt.ComesFrom address) :
    attempt.validate = .ok address := by
  rw [Attempt.validate, if_neg fun he => h.login (String.isEmpty_iff.mp he),
    if_neg fun he => h.password (String.isEmpty_iff.mp he)]
  exact Address.parse_eq_ok_iff.mpr h.address

theorem Faulty.validate {e : InvalidInput} (h : attempt.Faulty e) :
    attempt.validate = .error e := by
  have hempty : ∀ {text : String}, text ≠ "" → ¬ text.isEmpty = true :=
    fun hne he => hne (String.isEmpty_iff.mp he)
  unfold Attempt.validate
  cases h with
  | noLogin hl => rw [if_pos (String.isEmpty_iff.mpr hl)]
  | noPassword hl hp => rw [if_neg (hempty hl), if_pos (String.isEmpty_iff.mpr hp)]
  | noAddress hl hp ha =>
    rw [if_neg (hempty hl), if_neg (hempty hp), ha]
    rfl
  | badAddress hl hp ha hnone =>
    rw [if_neg (hempty hl), if_neg (hempty hp), Address.parse_of_ne_text hnone, if_neg ha]

theorem requests_eq (attempt : Attempt) : attempt.requests =
    .enumerate .deny :: .enumerate .allow ::
      attempt.dimensions.map fun p => .increment (p.1.key p.2) := rfl

/-- No request is made twice. -/
theorem nodup_requests (attempt : Attempt) : attempt.requests.Nodup := by
  have hkeys : ∀ {d d' : Dimension} {v v' : String}, d ≠ d' →
      Request.increment (d.key v) ≠ .increment (d'.key v') :=
    fun h heq => Dimension.key_ne h _ _ (Request.increment.inj heq)
  simp [requests, hkeys]

end Attempt

/-! ## Calls that decide -/

namespace Call

variable {limits : Thresholds} {attempt : Attempt} {address : Address} {d : Decision}

theorem not_decides_of_error {request : Request} {e : StoreError} :
    ¬ Decides limits attempt address d ⟨request, .error e⟩ := by
  cases request <;> exact id

/-- A reply decides one way only: a key belongs to one dimension. -/
theorem Decides.unique {c : Call} {d' : Decision} (h : c.Decides limits attempt address d)
    (h' : c.Decides limits attempt address d') : d' = d := by
  obtain ⟨request, answer⟩ := c
  cases answer with
  | error e => exact absurd h not_decides_of_error
  | ok reply =>
    cases request with
    | enumerate list => exact h'.1.trans h.1.symm
    | increment key =>
      obtain ⟨p, -, hkey, -, rfl⟩ := h
      obtain ⟨p', -, hkey', -, rfl⟩ := h'
      rw [(Dimension.key_injective (hkey.symm.trans hkey')).1]
    | contains | add | remove | set | flush => exact h.elim

/-- No reply alone lets an attempt pass. -/
theorem Decides.ne_passed {c : Call} (h : c.Decides limits attempt address d) :
    d ≠ ⟨true, .passed⟩ := by
  obtain ⟨request, answer⟩ := c
  cases answer with
  | error e => exact absurd h not_decides_of_error
  | ok reply =>
    cases request with
    | enumerate list =>
      obtain ⟨rfl, -⟩ := h
      cases list <;> nofun
    | increment key =>
      obtain ⟨p, -, -, -, rfl⟩ := h
      nofun
    | contains | add | remove | set | flush => exact h.elim

theorem not_ends {request : Request} {reply : request.Reply}
    (h : ∀ d, ¬ Decides limits attempt address d ⟨request, .ok reply⟩) :
    ¬ Ends limits attempt address ⟨request, .ok reply⟩ := by
  rintro (⟨e, he⟩ | ⟨d, hd⟩)
  · cases he
  · exact h d hd

end Call

/-! ## Trails -/

/-- The calls go through the requests up to the first that fails or decides, which makes the
result. -/
inductive Trail (limits : Thresholds) (attempt : Attempt) (address : Address) :
    List Request → List Call → Except Failure Decision → Prop
  | passed : Trail limits attempt address [] [] (.ok ⟨true, .passed⟩)
  | failed {request : Request} {rest : List Request} {e : StoreError} :
    Trail limits attempt address (request :: rest) [⟨request, .error e⟩] (.error (.ofStore e))
  | decided {request : Request} {rest : List Request} {reply : request.Reply} {d : Decision} :
    Call.Decides limits attempt address d ⟨request, .ok reply⟩ →
    Trail limits attempt address (request :: rest) [⟨request, .ok reply⟩] (.ok d)
  | next {request : Request} {rest : List Request} {reply : request.Reply} {calls : List Call}
    {result : Except Failure Decision} :
    (∀ d, ¬ Call.Decides limits attempt address d ⟨request, .ok reply⟩) →
    Trail limits attempt address rest calls result →
    Trail limits attempt address (request :: rest) (⟨request, .ok reply⟩ :: calls) result

namespace Trail

variable {limits : Thresholds} {attempt : Attempt} {address : Address} {requests : List Request}
  {calls : List Call} {result : Except Failure Decision}

theorem asked (h : Trail limits attempt address requests calls result) :
    calls.map (·.request) <+: requests := by
  induction h with
  | passed => exact List.nil_prefix
  | failed | decided => exact ⟨_, rfl⟩
  | next _ _ ih => exact (List.prefix_cons_inj _).mpr ih

theorem ended (h : Trail limits attempt address requests calls result) {before after : List Call}
    {c : Call} (heq : calls = before ++ c :: after) (hc : c.Ends limits attempt address) :
    after = [] := by
  induction h generalizing before with
  | passed => cases before <;> cases heq
  | failed | decided =>
    cases before with
    | nil => exact (List.cons.inj heq).2.symm
    | cons _ before => cases before <;> cases (List.cons.inj heq).2
  | next hgoes _ ih =>
    cases before with
    | nil =>
      obtain ⟨rfl, -⟩ := List.cons.inj heq
      exact absurd hc (Call.not_ends hgoes)
    | cons _ before => exact ih (List.cons.inj heq).2

/-- A trail without an end goes through all requests and lets the attempt pass. -/
theorem exhausted (h : Trail limits attempt address requests calls result)
    (hcalls : ∀ c ∈ calls, ¬ c.Ends limits attempt address) :
    calls.map (·.request) = requests ∧ result = .ok ⟨true, .passed⟩ := by
  induction h with
  | passed => exact ⟨rfl, rfl⟩
  | failed => exact absurd (.inl ⟨_, rfl⟩) (hcalls _ List.mem_cons_self)
  | decided hd => exact absurd (.inr ⟨_, hd⟩) (hcalls _ List.mem_cons_self)
  | next _ _ ih =>
    obtain ⟨hall, hresult⟩ := ih fun c hc => hcalls c (List.mem_cons_of_mem _ hc)
    exact ⟨congrArg _ hall, hresult⟩

theorem failed_of_mem (h : Trail limits attempt address requests calls result) {c : Call}
    (hc : c ∈ calls) {e : StoreError} (he : c.answer = .error e) :
    result = .error (.ofStore e) := by
  induction h with
  | passed => cases hc
  | failed =>
    obtain rfl := List.mem_singleton.mp hc
    rw [Except.error.inj he]
  | decided =>
    obtain rfl := List.mem_singleton.mp hc
    cases he
  | next _ _ ih =>
    rcases List.mem_cons.mp hc with rfl | hc
    · cases he
    · exact ih hc

theorem decided_of_mem (h : Trail limits attempt address requests calls result) {c : Call}
    (hc : c ∈ calls) {d : Decision} (hd : c.Decides limits attempt address d) :
    result = .ok d := by
  induction h with
  | passed => cases hc
  | failed =>
    obtain rfl := List.mem_singleton.mp hc
    exact absurd hd Call.not_decides_of_error
  | decided hd' =>
    obtain rfl := List.mem_singleton.mp hc
    rw [hd.unique hd']
  | next hgoes _ ih =>
    rcases List.mem_cons.mp hc with rfl | hc
    · exact absurd hd (hgoes d)
    · exact ih hc

end Trail

/-! ## Verdicts -/

section Verdict

variable {limits : Thresholds} {attempt : Attempt} {address : Address} {calls : List Call}
  {result : Except Failure Decision}

/-- No request is answered twice. -/
theorem Trail.same_call (h : Trail limits attempt address attempt.requests calls result)
    {c c' : Call} (hc : c ∈ calls) (hc' : c' ∈ calls) (heq : c.request = c'.request) : c = c' :=
  List.inj_on_of_nodup_map (attempt.nodup_requests.sublist h.asked.sublist) hc hc' heq

theorem Trail.decided_of_covers {requests : List Request}
    (h : Trail limits attempt address requests calls result) {list : AccessList}
    (hcovers : CoversIn calls list address) : result = .ok list.decision :=
  let ⟨_, hcall, e, he, hcontains⟩ := hcovers
  h.decided_of_mem hcall ⟨rfl, e, he, hcontains⟩

/-- An attempt whose requests all went through is within its limits. -/
theorem withinIn_of_not_ends (hall : calls.map (·.request) = attempt.requests)
    (hcalls : ∀ c ∈ calls, ¬ c.Ends limits attempt address) :
    ∀ p ∈ attempt.dimensions, WithinIn calls limits p := by
  intro p hp
  have hmem : Request.increment (p.1.key p.2) ∈ calls.map (·.request) := by
    rw [hall, Attempt.requests_eq]
    exact List.mem_cons_of_mem _ (List.mem_cons_of_mem _ (List.mem_map_of_mem hp))
  obtain ⟨⟨request, answer⟩, hc, rfl⟩ := List.mem_map.mp hmem
  cases answer with
  | error e => exact absurd (.inl ⟨e, rfl⟩) (hcalls _ hc)
  | ok count =>
    refine ⟨count, hc, UInt64.not_lt.mp fun hover => ?_⟩
    exact hcalls _ hc (.inr ⟨_, p, hp, rfl, hover, rfl⟩)

/-- Only the end of all requests lets an attempt pass, and then its counts are within the limits. -/
theorem Trail.withinIn_of_passed (h : Trail limits attempt address attempt.requests calls result)
    (hpassed : result = .ok ⟨true, .passed⟩) :
    ∀ p ∈ attempt.dimensions, WithinIn calls limits p := by
  have hcalls : ∀ c ∈ calls, ¬ c.Ends limits attempt address := by
    rintro c hc (⟨e, he⟩ | ⟨d, hd⟩)
    · cases (h.failed_of_mem hc he).symm.trans hpassed
    · exact hd.ne_passed (Except.ok.inj ((h.decided_of_mem hc hd).symm.trans hpassed))
  exact withinIn_of_not_ends (h.exhausted hcalls).1 hcalls

/-- What comes of an evaluation none of whose calls fails. -/
theorem Trail.verdict (h : Trail limits attempt address attempt.requests calls result)
    (hcalls : ∀ c ∈ calls, ¬ c.Fails) :
    ∃ d : Decision, result = .ok d ∧ (d.allowed = true ↔ ¬ CoversIn calls .deny address ∧
      (CoversIn calls .allow address ∨ ∀ p ∈ attempt.dimensions, WithinIn calls limits p)) := by
  by_cases hdecided : ∃ c ∈ calls, ∃ d, c.Decides limits attempt address d
  · obtain ⟨c, hc, d, hd⟩ := hdecided
    have hresult := h.decided_of_mem hc hd
    have covered : ∀ {list}, CoversIn calls list address → d = list.decision := fun hcovers =>
      Except.ok.inj (hresult.symm.trans (h.decided_of_covers hcovers))
    refine ⟨d, hresult, ?_⟩
    obtain ⟨request, answer⟩ := c
    cases answer with
    | error e => exact absurd hd Call.not_decides_of_error
    | ok reply =>
      cases request with
      | enumerate list =>
        obtain ⟨rfl, hentry⟩ := hd
        have hcovers : CoversIn calls list address := ⟨reply, hc, hentry⟩
        cases list with
        | deny => exact iff_of_false Bool.false_ne_true fun hrest => hrest.1 hcovers
        | allow => exact iff_of_true rfl ⟨fun hdeny => (nomatch covered hdeny), .inl hcovers⟩
      | increment key =>
        obtain ⟨p, hp, rfl, hover, rfl⟩ := hd
        refine iff_of_false Bool.false_ne_true ?_
        rintro ⟨-, hallow | hwithin⟩
        · cases covered hallow
        · obtain ⟨count, hcount, hle⟩ := hwithin p hp
          cases h.same_call hc hcount rfl
          exact absurd hle (UInt64.not_le.mpr hover)
      | contains | add | remove | set | flush => exact hd.elim
  · have hnone : ∀ c ∈ calls, ¬ c.Ends limits attempt address := fun c hc hend =>
      hend.elim (hcalls c hc) fun hd => hdecided ⟨c, hc, hd⟩
    obtain ⟨hall, hresult⟩ := h.exhausted hnone
    refine ⟨_, hresult, iff_of_true rfl ⟨fun hdeny => ?_, .inr (withinIn_of_not_ends hall hnone)⟩⟩
    cases hresult.symm.trans (h.decided_of_covers hdeny)

end Verdict

/-! ## The trail of an evaluation -/

namespace Engine

variable {σ : Type} (host : Host σ) {limits : Thresholds} {attempt : Attempt} {address : Address}

/-- The trail through a list: it fails, decides, or leaves the attempt to the rest. -/
theorem trail_covers (list : AccessList) {rest : List Request}
    {next : Except Failure Bool → Procedure (Except Failure Decision)}
    (hfailed : ∀ e, next (.error e) = done (.error e))
    (hcovered : next (.ok true) = done (.ok list.decision))
    (hrest : ∀ s, Trail limits attempt address rest ((next (.ok false)).run host s).calls
      ((next (.ok false)).run host s).result) (s : σ) :
    let r := ((covers list address).bind next).run host s
    Trail limits attempt address (.enumerate list :: rest) r.calls r.result := by
  simp only [covers, query, Procedure.bind, Procedure.run]
  cases (host.answer (.enumerate list) s).1 with
  | error e =>
    simp only [Procedure.bind, hfailed, Procedure.run]
    exact .failed
  | ok entries =>
    cases hcovers : Entry.covers address entries with
    | true =>
      simp only [Procedure.bind, hcovers, hcovered, Procedure.run]
      exact .decided ⟨rfl, Entry.covers_iff.mp hcovers⟩
    | false =>
      simp only [Procedure.bind, hcovers]
      refine .next (fun d hd => ?_) (hrest _)
      rw [Entry.covers_iff.mpr hd.2] at hcovers
      cases hcovers

/-- The trail through the rates. -/
theorem trail_decideByRates {dimensions : List (Dimension × String)}
    (hdimensions : ∀ p ∈ dimensions, p ∈ attempt.dimensions) (s : σ) :
    let r := (decideByRates limits dimensions).run host s
    Trail limits attempt address (dimensions.map fun p => .increment (p.1.key p.2)) r.calls
      r.result := by
  induction dimensions generalizing s with
  | nil => exact .passed
  | cons p rest ih =>
    obtain ⟨d, value⟩ := p
    obtain ⟨hp, hrest⟩ := List.forall_mem_cons.mp hdimensions
    simp only [decideByRates, check, Procedure.bind, Procedure.run]
    cases (host.answer (.increment (d.key value)) s).1 with
    | error e =>
      simp only [Procedure.bind, Procedure.run]
      exact .failed
    | ok count =>
      by_cases hwithin : count ≤ limits.limit d
      · have hin : RateCheck.within ⟨count, limits.limit d⟩ = true := decide_eq_true hwithin
        simp only [hin, if_true, Procedure.bind]
        refine .next ?_ (ih hrest _)
        rintro _ ⟨p, -, hkey, hover, -⟩
        rw [← (Dimension.key_injective hkey).1] at hover
        exact absurd hwithin (UInt64.not_le.mpr hover)
      · have hover : RateCheck.within ⟨count, limits.limit d⟩ = false := decide_eq_false hwithin
        have hdecides : Call.Decides limits attempt address ⟨false, d.reason⟩
            ⟨.increment (d.key value), .ok count⟩ :=
          ⟨(d, value), hp, rfl, UInt64.not_le.mp hwithin, rfl⟩
        simp only [hover, Bool.false_eq_true, if_false, Procedure.bind, Procedure.run]
        exact .decided hdecides

theorem trail_decide (s : σ) :
    let r := (decide limits attempt address).run host s
    Trail limits attempt address attempt.requests r.calls r.result := by
  refine trail_covers host .deny (fun _ => rfl) rfl (fun s => ?_) s
  refine trail_covers host .allow (fun _ => rfl) rfl (fun s => ?_) s
  exact trail_decideByRates host (fun _ => id) s

/-- The evaluation of a valid attempt follows the trail of its decision, and announces what comes of
it. -/
theorem trail_evaluate (hv : attempt.validate = .ok address) (s : σ) :
    let r := (evaluate limits attempt).run host s
    Trail limits attempt address attempt.requests r.calls r.result ∧
      r.events = Event.ofEvaluation r.result := by
  have htrail : Trail limits attempt address _ _ _ := trail_decide host s
  have hsilent := events_of_silent host (silent_decide limits attempt address) s
  simp only [evaluate, hv, run_bind, hsilent]
  generalize (decide limits attempt address).run host s = t at htrail
  obtain ⟨result, state, calls, logs, events⟩ := t
  cases result <;> exact ⟨(List.append_nil calls).symm ▸ htrail, rfl⟩

end Engine

/-! ## Counters -/

/-- A request that an evaluation may make. -/
def Request.Consults (request : Request) : Prop :=
  (∃ list, request = .enumerate list) ∨ ∃ key, request = .increment key

theorem Engine.consults_evaluate (limits : Thresholds) (attempt : Attempt) :
    (Engine.evaluate limits attempt).Asks Request.Consults :=
  Engine.asks_evaluate (fun list => .inl ⟨list, rfl⟩) fun p _ => .inr ⟨p.1.key p.2, rfl⟩

/-- What one answer does to a counter: an increment of it that succeeds leaves it at the count that
is replied, and any other answer leaves it as it is. -/
theorem Host.Counting.answer {σ : Type} {host : Host σ} {count : σ → String → UInt64}
    (h : host.Counting count) {request : Request} (hrequest : request.Consults) (key : String)
    (s : σ) :
    let call : Call := ⟨request, (host.answer request s).1⟩
    let after := count (host.answer request s).2.1 key
    (∃ n, call = ⟨.increment key, .ok n⟩ ∧ after = n) ∨
      ((∀ n, call ≠ ⟨.increment key, .ok n⟩) ∧ after = count s key) := by
  rcases hrequest with ⟨list, rfl⟩ | ⟨other, rfl⟩
  · exact .inr ⟨nofun, congrFun (h.enumerate list s) key⟩
  · cases hanswer : (host.answer (.increment other) s).1 with
    | error e => exact .inr ⟨nofun, congrFun (h.failed other s e hanswer) key⟩
    | ok n =>
      have hafter := h.counted other s n hanswer key
      by_cases hkey : other = key
      · subst hkey
        exact .inl ⟨n, rfl, hafter.trans (if_pos rfl)⟩
      · refine .inr ⟨fun m hm => ?_, hafter.trans (if_neg hkey)⟩
        cases hm
        exact hkey rfl

/-- A counter ends at the count of its last increment that succeeds, and as it was if there is
none. -/
theorem Host.Counting.run {σ α : Type} {host : Host σ} {count : σ → String → UInt64}
    (h : host.Counting count) {p : Procedure α} (hp : p.Asks Request.Consults) (key : String)
    (s : σ) :
    let r := p.run host s
    (∃ n, (⟨.increment key, .ok n⟩ : Call) ∈ r.calls ∧ count r.state key = n) ∨
      ((∀ n, (⟨.increment key, .ok n⟩ : Call) ∉ r.calls) ∧ count r.state key = count s key) := by
  induction p generalizing s with
  | done a => exact .inr ⟨fun _ => List.not_mem_nil, rfl⟩
  | note line next ih => exact ih hp s
  | announce event next ih =>
    have hnext := ih hp (host.hear event s).1
    rwa [h.heard] at hnext
  | ask request next ih =>
    rcases ih _ (hp.2 (host.answer request s).1) (host.answer request s).2.1 with
      ⟨n, hn, hcount⟩ | ⟨hnone, hcount⟩
    · exact .inl ⟨n, List.mem_cons_of_mem _ hn, hcount⟩
    · refine (h.answer hp.1 key s).imp ?_ ?_
      · rintro ⟨n, hcall, hn⟩
        exact ⟨n, hcall ▸ List.mem_cons_self, hcount.trans hn⟩
      · rintro ⟨hcall, hsame⟩
        refine ⟨fun n hn => ?_, hcount.trans hsame⟩
        exact (List.mem_cons.mp hn).elim (hcall n ·.symm) (hnone n)

/-- The stores of a site move their counters by increments only, whatever faults are laid on
them. -/
theorem Site.counting : Site.host.Counting Site.count := by
  constructor
  case enumerate =>
    intro list s
    rcases Site.host_answer_cases (.enumerate list) s with ⟨_, _, _, h⟩ | h
    · rw [h]
    · rw [h]
      rfl
  case failed =>
    intro key s e he
    rcases Site.host_answer_cases (.increment key) s with ⟨_, _, _, h⟩ | h
    · rw [h]
    · rw [h] at he
      cases he
  case counted =>
    intro key s n hn other
    rcases Site.host_answer_cases (.increment key) s with ⟨_, _, _, h⟩ | h
    · rw [h] at hn
      cases hn
    · rw [h] at hn ⊢
      cases hn
      exact Counters.value_set s.stores.counters key other _
  case heard => exact fun event s => rfl

/-! ## The law -/

section Law

variable {σ : Type} (host : Host σ) (limits : Thresholds) (attempt : Attempt)

theorem Attempt.ComesFrom.consulted {attempt : Attempt} {address : Address}
    (h : attempt.ComesFrom address) (s : σ) :
    Consulted limits attempt address ((Engine.evaluate limits attempt).run host s) := by
  obtain ⟨htrail, hevents⟩ := Engine.trail_evaluate host h.validate s
  constructor
  case asked => exact htrail.asked
  case ended => exact fun before c after => htrail.ended
  case exhausted => exact fun hcalls => (htrail.exhausted hcalls).1
  case failed =>
    intro c hc e he
    have hresult := htrail.failed_of_mem hc he
    exact ⟨hresult, hevents.trans (congrArg Event.ofEvaluation hresult)⟩
  case decided => exact fun c hc d hd => htrail.decided_of_mem hc hd
  case passed => exact fun hcalls => (htrail.exhausted hcalls).2
  case answered =>
    intro hcalls
    obtain ⟨d, hresult, hallowed⟩ := htrail.verdict hcalls
    exact ⟨d, hresult, hevents.trans (congrArg Event.ofEvaluation hresult), hallowed⟩

theorem Attempt.Faulty.refused {attempt : Attempt} {e : InvalidInput} (h : attempt.Faulty e)
    (s : σ) : (Engine.evaluate limits attempt).run host s =
      ⟨.error (.invalid e), s, [], [], []⟩ := by
  simp only [Engine.evaluate, h.validate, Procedure.run]

/-- No evaluation makes a request twice. -/
theorem Engine.nodup_calls_evaluate (s : σ) :
    (((Engine.evaluate limits attempt).run host s).calls.map (·.request)).Nodup := by
  rcases attempt.faulty_or_comesFrom with ⟨e, he⟩ | ⟨address, haddress⟩
  · rw [he.refused host limits s]
    exact List.nodup_nil
  · exact attempt.nodup_requests.sublist (haddress.consulted host limits s).asked.sublist

end Law

/-- Whatever the stores answer, an evaluation asks them in its order up to the first call that fails
or decides, fails with that call or decides by the replies, and announces just its decision. The
stores of a site are among those that are moved by increments only. -/
theorem evaluation_law {σ : Type} (host : Host σ) (limits : Thresholds) (attempt : Attempt)
    (s : σ) : EvaluationLaw host limits attempt s ∧ Site.host.Counting Site.count := by
  refine ⟨?_, Site.counting⟩
  constructor
  case valid => exact attempt.faulty_or_comesFrom
  case refused => exact fun e he => he.refused host limits s
  case consulted => exact fun address haddress => haddress.consulted host limits s
  case counters =>
    intro count hcounting key
    dsimp only
    have hnodup := Engine.nodup_calls_evaluate host limits attempt s
    rcases hcounting.run (Engine.consults_evaluate limits attempt) key s with
      ⟨n, hn, hcount⟩ | ⟨hnone, hcount⟩
    · refine ⟨fun m hm => ?_, fun hnone => absurd hn (hnone n)⟩
      cases List.inj_on_of_nodup_map hnodup hm hn rfl
      exact hcount
    · exact ⟨fun m hm => absurd hm (hnone m), fun _ => hcount⟩

end LoginAdmission
