/-
  The gate: a request reaches its handler only when an evaluation allows it.

  Main statement: `gate_law`, for every session, whatever its lists, counters, faults and timers
  are. A request at the gate is held against an evaluation of the same attempt in the same place:
  the two talk with the stores alike, and the handler is called once if the evaluation allows the
  attempt and not at all otherwise. Over a run, the count of handled requests grows by those that
  were let in (`Session.admissions`).

  That an allowed decision and a denied one never share a reason is a property of every result of an
  evaluation, whatever the stores reply (`Engine.yields_evaluate`). That an attempt which passes was
  counted is read off the trail of its calls (`Trail.withinIn_of_passed`).
-/
import LoginAdmission.Proofs.Consultation

namespace LoginAdmission

open Procedure

/-- The reasons that let in, and no others, go with a decision that allows. -/
def Decision.Consistent (d : Decision) : Prop :=
  d.allowed = true ↔ d.reason = .allowlisted ∨ d.reason = .passed

/-- Whether an answer is a decision that allows. -/
def Answer.allows : Answer → Bool
  | .decision d => d.allowed
  | _ => false

namespace Session

/-- Whether an operation is a request at the gate that is ready and would be allowed by an
evaluation in its place. -/
def admits (s : Session) : Op → Bool
  | .gate attempt handler => handler.isReady && (s.step (.evaluate attempt)).result.allows
  | _ => false

/-- How many of the operations, done one after the other, are let in at the gate. -/
def admissions (s : Session) : List Op → Nat
  | [] => 0
  | op :: ops => (s.admits op).toNat + (s.step op).state.admissions ops

end Session

/-- What the gate does, told by an evaluation of the same attempt in the same place. -/
structure GateLaw (s : Session) : Prop where
  /-- A ready request talks with the stores and the sink as an evaluation does, and leaves the same
  session but for the count of handled requests. -/
  same : ∀ attempt handler, handler.isReady →
    let e := s.step (.evaluate attempt)
    let g := s.step (.gate attempt handler)
    g.calls = e.calls ∧ g.events = e.events ∧ g.logs = e.logs ∧
      g.state = { e.state with handled := g.state.handled }
  /-- An evaluation ends with a decision whose reason fits its verdict, or with a failure. -/
  evaluated : ∀ attempt,
    (∃ d : Decision, (s.step (.evaluate attempt)).result = .decision d ∧ d.Consistent) ∨
      ∃ e, (s.step (.evaluate attempt)).result = .failed e
  /-- An allowed request is handed to the handler, once, and gets what the handler makes of it. -/
  allowed : ∀ attempt handler d, handler.isReady →
    (s.step (.evaluate attempt)).result = .decision d → d.allowed = true →
    (∀ text, handler.reply attempt = .ok text →
      (s.step (.gate attempt handler)).result = .passage (.ok text) (s.handled + 1)) ∧
    (∀ text, handler.reply attempt = .error text →
      (s.step (.gate attempt handler)).result = .passage (.error (.inner text)) (s.handled + 1)) ∧
    (s.step (.gate attempt handler)).state.handled = s.handled + 1
  /-- If it passed all checks, its login, password and address are counted, whatever the handler
  makes of it. -/
  counted : ∀ attempt handler d, handler.isReady →
    (s.step (.evaluate attempt)).result = .decision d → d.reason = .passed →
    ∀ p ∈ attempt.dimensions, ∃ n,
      (⟨.increment (p.1.key p.2), .ok n⟩ : Call) ∈ (s.step (.gate attempt handler)).calls
  /-- A denied one is turned away with the reason of the evaluation, which is none to let it in. -/
  denied : ∀ attempt handler d, handler.isReady →
    (s.step (.evaluate attempt)).result = .decision d → d.allowed = false →
    (s.step (.gate attempt handler)).result = .passage (.error (.denied d.reason)) s.handled ∧
      (s.step (.gate attempt handler)).state.handled = s.handled ∧
      d.reason ≠ .allowlisted ∧ d.reason ≠ .passed
  /-- One that cannot be evaluated is turned away with the failure, which is no denial. -/
  failed : ∀ attempt handler e, handler.isReady →
    (s.step (.evaluate attempt)).result = .failed e →
    (s.step (.gate attempt handler)).result = .passage (.error (.failed e)) s.handled ∧
      (s.step (.gate attempt handler)).state.handled = s.handled
  /-- A request whose handler is not ready is neither evaluated nor does it change anything. -/
  unready : ∀ attempt handler text, handler.ready = .error text →
    s.step (.gate attempt handler) = s.answered (.passage (.error (.inner text)) s.handled)
  /-- Over a run, the requests that are handled are those that were ready and allowed. -/
  handled : ∀ ops, (s.after ops).handled = s.handled + s.admissions ops

/-! ## The verdict of an evaluation and its reason -/

namespace Engine

/-- A result that is no inconsistent decision. -/
def Sensible (result : Except Failure Decision) : Prop := ∀ d, result = .ok d → d.Consistent

theorem sensible_error (e : Failure) : Sensible (.error e) := nofun

theorem sensible_ok {d : Decision} (h : d.Consistent) : Sensible (.ok d) := by
  rintro _ ⟨rfl⟩
  exact h

theorem consistent_over (d : Dimension) : Decision.Consistent ⟨false, d.reason⟩ := by
  cases d <;> simp [Decision.Consistent, Dimension.reason]

theorem yields_decideByRates (limits : Thresholds) (dimensions : List (Dimension × String)) :
    (decideByRates limits dimensions).Yields Sensible := by
  induction dimensions with
  | nil => exact sensible_ok (by simp [Decision.Consistent])
  | cons dimension rest ih =>
    refine yields_bind (yields_true _) fun checked _ => ?_
    cases checked with
    | error e => exact sensible_error _
    | ok result =>
      dsimp only
      split
      · exact ih
      · exact sensible_ok (consistent_over _)

theorem yields_decide (limits : Thresholds) (attempt : Attempt) (address : Address) :
    (decide limits attempt address).Yields Sensible := by
  refine yields_bind (yields_true _) fun denied _ => ?_
  match denied with
  | .error e => exact sensible_error e
  | .ok true => exact sensible_ok (by simp [Decision.Consistent])
  | .ok false =>
    refine yields_bind (yields_true _) fun allowed _ => ?_
    match allowed with
    | .error e => exact sensible_error e
    | .ok true => exact sensible_ok (by simp [Decision.Consistent])
    | .ok false => exact yields_decideByRates limits _

/-- Every decision of an evaluation is consistent, whatever the stores reply. -/
theorem yields_evaluate (limits : Thresholds) (attempt : Attempt) :
    (evaluate limits attempt).Yields Sensible := by
  unfold evaluate
  cases attempt.validate with
  | error e => exact sensible_error _
  | ok address =>
    refine yields_bind (yields_decide limits attempt address) fun result hresult => ?_
    cases result <;> exact hresult

/-! ## The counts of an attempt that passes -/

section Counts

variable {σ : Type} (host : Host σ)

/-- The call for a value is among the calls, and it is answered with a count. -/
def Counted (calls : List Call) (p : Dimension × String) : Prop :=
  ∃ n, (⟨.increment (p.1.key p.2), .ok n⟩ : Call) ∈ calls

/-- An attempt that passes has its login, password and address counted. -/
theorem counted_evaluate (limits : Thresholds) (attempt : Attempt) (s : σ)
    (h : ((evaluate limits attempt).run host s).result = .ok ⟨true, .passed⟩) :
    ∀ p ∈ attempt.dimensions, Counted ((evaluate limits attempt).run host s).calls p := by
  rcases attempt.faulty_or_comesFrom with ⟨e, he⟩ | ⟨address, haddress⟩
  · rw [he.refused host limits s] at h
    cases h
  · intro p hp
    obtain ⟨htrail, -⟩ := trail_evaluate host haddress.validate s
    obtain ⟨n, hn, -⟩ := htrail.withinIn_of_passed h p hp
    exact ⟨n, hn⟩

end Counts

end Engine

/-! ## One request -/

namespace Session

variable (s : Session) {attempt : Attempt} {handler : Handler}

/-- What the gate makes of an evaluation's result, and how it counts it. -/
theorem step_gate (hready : handler.isReady = true) (attempt : Attempt) :
    s.step (.gate attempt handler) =
      let t := (Engine.evaluate s.limits attempt).run Site.host s.site
      let passage := Gate.passage attempt handler t.result
      let handled := if passage.handled then s.handled + 1 else s.handled
      ⟨.passage passage.reply handled, { s with site := t.state, handled }, t.calls, t.logs,
        t.events⟩ := by
  simp only [step, gate, Gate.pass_of_ready hready, run_map]

theorem step_gate_of_unready {text : String} (h : handler.ready = .error text)
    (attempt : Attempt) :
    s.step (.gate attempt handler) = s.answered (.passage (.error (.inner text)) s.handled) := by
  simp only [step, gate, Gate.pass_of_unready h]
  rfl

example (attempt : Attempt) : s.step (.gate attempt .unready) =
    s.answered (.passage (.error (.inner "not ready")) s.handled) := rfl

theorem evaluated_consistent {d : Decision}
    (h : (s.step (.evaluate attempt)).result = .decision d) : d.Consistent :=
  result_of_yields Site.host (Engine.yields_evaluate s.limits attempt) s.site d
    (s.evaluated_decision_iff.mp h)

theorem evaluated_cases (attempt : Attempt) :
    (∃ d : Decision, (s.step (.evaluate attempt)).result = .decision d ∧ d.Consistent) ∨
      ∃ e, (s.step (.evaluate attempt)).result = .failed e := by
  cases hresult : ((Engine.evaluate s.limits attempt).run Site.host s.site).result with
  | error e => exact .inr ⟨e, s.evaluated_failed_iff.mpr hresult⟩
  | ok d =>
    have hd := s.evaluated_decision_iff.mpr hresult
    exact .inl ⟨d, hd, s.evaluated_consistent hd⟩

/-- What comes of a ready request, by the result of its evaluation. -/
theorem passage_gate (hready : handler.isReady = true) {result : Except Failure Decision}
    (h : ((Engine.evaluate s.limits attempt).run Site.host s.site).result = result) :
    let passage := Gate.passage attempt handler result
    let handled := if passage.handled then s.handled + 1 else s.handled
    (s.step (.gate attempt handler)).result = .passage passage.reply handled ∧
      (s.step (.gate attempt handler)).state.handled = handled := by
  subst h
  rw [s.step_gate hready]
  exact ⟨rfl, rfl⟩

/-- A handler that fails was called all the same. -/
example : Gate.passage attempt .failing (.ok ⟨true, .passed⟩) = ⟨.error (.inner "boom"), true⟩ :=
  rfl

/-- The gate counts a request as handled just when it admits it. -/
theorem handled_gate (attempt : Attempt) (handler : Handler) :
    (s.step (.gate attempt handler)).state.handled =
      s.handled + (s.admits (.gate attempt handler)).toNat := by
  by_cases hready : handler.isReady = true
  · rw [s.step_gate hready]
    simp only [admits, hready, Bool.true_and, step, converse]
    cases ((Engine.evaluate s.limits attempt).run Site.host s.site).result with
    | error e => rfl
    | ok d =>
      obtain ⟨allowed, reason⟩ := d
      cases allowed <;> rfl
  · obtain ⟨text, htext⟩ := Handler.exists_of_not_isReady hready
    rw [s.step_gate_of_unready htext, admits, Bool.eq_false_iff.mpr hready, Bool.false_and]
    rfl

/-! ## A run -/

theorem handled_step (op : Op) :
    (s.step op).state.handled = s.handled + (s.admits op).toNat := by
  by_cases hgate : ∃ attempt handler, op = .gate attempt handler
  · obtain ⟨attempt, handler, rfl⟩ := hgate
    exact s.handled_gate attempt handler
  · have hnot : s.admits op = false := by
      cases op with
      | gate attempt handler => exact absurd ⟨attempt, handler, rfl⟩ hgate
      | _ => rfl
    rw [hnot]
    exact (s.step_frame op).2.2 fun attempt handler heq => hgate ⟨attempt, handler, heq⟩

theorem handled_after (ops : List Op) :
    (s.after ops).handled = s.handled + s.admissions ops := by
  induction ops generalizing s with
  | nil => rfl
  | cons op ops ih =>
    calc (s.after (op :: ops)).handled
        = (s.step op).state.handled + (s.step op).state.admissions ops := ih _
      _ = s.handled + s.admissions (op :: ops) := by
        rw [handled_step, admissions, Nat.add_assoc]

end Session

/-- The gate lets a request through to its handler only when the engine allows it. -/
theorem gate_law (s : Session) : GateLaw s := by
  constructor
  case same =>
    intro attempt handler hready
    dsimp only
    rw [s.step_gate hready]
    exact ⟨rfl, rfl, rfl, rfl⟩
  case evaluated => exact s.evaluated_cases
  case allowed =>
    intro attempt handler d hready hevaluated hallowed
    have hpassage := s.passage_gate hready (s.evaluated_decision_iff.mp hevaluated)
    simp only [Gate.passage, hallowed, if_true] at hpassage
    refine ⟨fun text htext => ?_, fun text htext => ?_, hpassage.2⟩ <;>
      rw [hpassage.1, htext] <;> rfl
  case counted =>
    rintro attempt handler ⟨allowed, reason⟩ hready hevaluated rfl
    obtain rfl : allowed = true := (s.evaluated_consistent hevaluated).mpr (.inr rfl)
    rw [s.step_gate hready]
    exact Engine.counted_evaluate Site.host s.limits attempt s.site
      (s.evaluated_decision_iff.mp hevaluated)
  case denied =>
    intro attempt handler d hready hevaluated hdenied
    have hpassage := s.passage_gate hready (s.evaluated_decision_iff.mp hevaluated)
    have hconsistent := s.evaluated_consistent hevaluated
    simp only [Gate.passage, hdenied] at hpassage
    have hreason : ¬ (d.reason = .allowlisted ∨ d.reason = .passed) := fun h =>
      Bool.false_ne_true (hdenied.symm.trans (hconsistent.mpr h))
    exact ⟨hpassage.1, hpassage.2, fun h => hreason (.inl h), fun h => hreason (.inr h)⟩
  case failed =>
    exact fun attempt handler e hready hevaluated =>
      s.passage_gate hready (s.evaluated_failed_iff.mp hevaluated)
  case unready => exact fun attempt handler text htext => s.step_gate_of_unready htext attempt
  case handled => exact s.handled_after

end LoginAdmission
