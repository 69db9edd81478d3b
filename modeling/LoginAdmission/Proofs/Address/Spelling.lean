/-
  Addresses have one spelling, so an address has one counter.

  The lists are asked with the address that a text stands for, the counters with the text itself.
  Both agree because no two texts stand for one address (`Address.parse_eq_ok_iff`).

  Main statement: `spelling_law`. Evaluations count an address under its dotted form only, whoever
  asks for them and whatever the stores reply, and a reset that succeeds zeroes just this counter.
-/
import LoginAdmission.Proofs.Address.Dotted
import LoginAdmission.Proofs.Counting.Evaluation

namespace LoginAdmission

open Procedure

/-- What comes of the text of an address in a session. -/
structure SpellingLaw (s : Session) : Prop where
  /-- The dotted form of an address is read as that address. -/
  written : ∀ a : Address, Address.parse a.text = .ok a
  /-- Nothing else is read as an address. -/
  only : ∀ text a, Address.parse text = .ok a → text = a.text
  /-- Every other text is refused. -/
  refused : ∀ text, (∀ a : Address, text ≠ a.text) →
    Address.parse text = .error (if text = "" then .emptyAddress else .malformedAddress text)
  /-- Valid attempts have the same address counter just when they come from the same address. -/
  shared : ∀ (attempt attempt' : Attempt) a a',
    attempt.validate = .ok a → attempt'.validate = .ok a' →
    (Dimension.address.key attempt.address = Dimension.address.key attempt'.address ↔ a = a')
  /-- An operation that evaluates a valid attempt checks no other address counter than that of the
  address. -/
  checked : ∀ (op : Op) (attempt : Attempt) a, op.attempt? = some attempt →
    attempt.validate = .ok a →
    ∀ value, Dimension.address.key value ∈ s.checked op → value = a.text
  /-- A reset on a text that is read as an address sets the counter that all attempts from there
  use to zero and leaves all others alone, unless the store fails. -/
  reset : ∀ text a, Address.parse text = .ok a →
    let t := s.step (.resetAddress text)
    (s.site.Sound → t.result = .done) ∧
      (t.result = .done → ∀ attempt : Attempt, attempt.validate = .ok a → ∀ key,
        t.state.site.count key =
          if Dimension.address.key attempt.address = key then 0 else s.site.count key)

/-- A valid attempt gives its address in dotted form. -/
theorem Attempt.address_of_validate {attempt : Attempt} {a : Address}
    (h : attempt.validate = .ok a) : attempt.address = a.text := by
  unfold validate at h
  split at h
  · cases h
  · split at h
    · cases h
    · exact Address.parse_eq_ok_iff.mp h

namespace Session

variable (s : Session)

/-- The keys that an evaluation checks are those of the attempt. -/
theorem key_of_mem_checked {op : Op} {attempt : Attempt} (hop : op.attempt? = some attempt)
    {key : String} (hkey : key ∈ s.checked op) :
    ∃ p ∈ attempt.dimensions, key = p.1.key p.2 := by
  have hasks : (Engine.evaluate s.limits attempt).Asks fun request =>
      ∀ k, request = .increment k → ∃ p ∈ attempt.dimensions, k = p.1.key p.2 :=
    Engine.asks_evaluate (fun _ => nofun) fun p hp k hk => ⟨p, hp, (Request.increment.inj hk).symm⟩
  rw [checked, checks, (s.evaluates_step hop).1] at hkey
  obtain ⟨call, hcall, hincrement⟩ := List.mem_filterMap.mp hkey
  refine request_of_mem_calls Site.host hasks s.site call hcall key ?_
  split at hincrement
  · next k hk => rw [hk, Option.some.inj hincrement]
  · cases hincrement

theorem address_of_mem_checked {op : Op} {attempt : Attempt} (hop : op.attempt? = some attempt)
    {value : String} (hvalue : Dimension.address.key value ∈ s.checked op) :
    value = attempt.address := by
  obtain ⟨⟨d, v⟩, hp, hkey⟩ := s.key_of_mem_checked hop hvalue
  obtain ⟨rfl, rfl⟩ := Dimension.key_injective hkey
  simpa [Attempt.dimensions] using hp

/-- What a reset of one counter answers and leaves, by whether a fault answers in its place. -/
theorem resetAddress_cases {text : String} {a : Address} (h : Address.parse text = .ok a) :
    let t := s.step (.resetAddress text)
    (∃ e, t.result = .failed e ∧ ¬ s.site.Sound) ∨
      t.result = .done ∧ ∀ key, t.state.site.count key =
        if Dimension.address.key text = key then 0 else s.site.count key := by
  simp only [step, converse, Engine.resetAddress, Engine.withInput, h, Engine.resetKey]
  rcases Site.host_answer_cases (.set (Dimension.address.key text) 0) s.site with
    ⟨fault, hfault, -, heq⟩ | heq
  · refine .inl ⟨.ofStore fault.error, ?_, fun hsound => ?_⟩
    · simp only [Procedure.run, heq, Answer.ofResult]
    · exact List.not_mem_nil (hsound ▸ hfault)
  · refine .inr ?_
    simp only [Procedure.run, heq, Stores.serve, Answer.ofResult, true_and]
    exact fun key => Counters.value_set ..

end Session

/-- An address has one spelling, and with it one counter. -/
theorem spelling_law (s : Session) : SpellingLaw s := by
  constructor
  case written => exact Address.parse_text
  case only => exact fun text a h => Address.parse_eq_ok_iff.mp h
  case refused => exact fun text => Address.parse_of_ne_text
  case shared =>
    intro attempt attempt' a a' h h'
    rw [Attempt.address_of_validate h, Attempt.address_of_validate h']
    constructor
    · exact fun hkey => Address.text_injective (Dimension.key_injective hkey).2
    · rintro rfl
      rfl
  case checked =>
    intro op attempt a hop hvalid value hvalue
    rw [s.address_of_mem_checked hop hvalue, Attempt.address_of_validate hvalid]
  case reset =>
    intro text a hparse
    dsimp only
    rcases s.resetAddress_cases hparse with ⟨e, hfailed, hfault⟩ | ⟨hdone, hcount⟩
    · exact ⟨fun hsound => absurd hsound hfault, fun hdone => nomatch hfailed.symm.trans hdone⟩
    · refine ⟨fun _ => hdone, fun _ attempt hvalid => ?_⟩
      rw [Attempt.address_of_validate hvalid, ← Address.parse_eq_ok_iff.mp hparse]
      exact hcount

end LoginAdmission
