/-
  Errands: operations that ask the stores for one thing.

  An operator's add, removal, exact query, enumeration, reset or flush looks at its input, asks the
  stores once and answers with what they say. `Op.errand?` reads the request off an operation, also
  where it is a command that carries it out.

  Main statements: `Session.step_refused` (on invalid input nothing is asked), `Session.step_asked`
  (on valid input the stores are asked once, and are left as their answer leaves them) and
  `Session.exists_reply` (an errand that goes well answers with the reply). The flushes of timers
  ask one thing each (`Session.calls_flushes`).
-/
import LoginAdmission.Proofs.Control

namespace LoginAdmission

open Procedure

/-- What an operation asks of the stores if it is an errand, or what is wrong with its input. -/
def Op.request? : Op → Option (Except InvalidInput Request)
  | .add list ip mask => some ((Subnet.make ip mask).map (.add list))
  | .remove list ip mask => some ((Subnet.make ip mask).map (.remove list))
  | .listed list ip mask => some ((Subnet.make ip mask).map (.contains list))
  | .listAll list => some (.ok (.enumerate list))
  | .resetLogin login =>
    let input : Except InvalidInput String :=
      if login.isEmpty then .error .emptyLogin else .ok login
    some (input.map fun login => .set (Dimension.login.key login) 0)
  | .resetAddress address =>
    some ((Address.parse address).map fun _ => .set (Dimension.address.key address) 0)
  | .flush => some (.ok .flush)
  | _ => none

/-- What is asked for an operation, or for the command in it. -/
def Op.errand? (op : Op) : Option (Except InvalidInput Request) := op.plain.request?

/-- The counter that an operation sets back to zero, also where it does so as a command. -/
def Op.reset? (op : Op) : Option (Dimension × String) :=
  match op.plain with
  | .resetLogin login => some (.login, login)
  | .resetAddress address => some (.address, address)
  | _ => none

/-- What an errand answers when the stores give a reply. -/
def Request.report : (request : Request) → request.Reply → Answer
  | .enumerate _, entries => .entries entries
  | .contains .., held => .flag held
  | .add .., id => .added id
  | _, _ => .done

/-- What an errand answers when the stores give an answer. -/
def Call.report (call : Call) : Answer :=
  .ofResult call.request.report (call.answer.mapError .ofStore)

namespace Session

/-- A step that asks the stores once and tells what they say. Past their answer it leaves them
alone. -/
structure Asked (s : Session) (request : Request) (t : Step) : Prop where
  calls : t.calls = [⟨request, (Site.host.answer request s.site).1⟩]
  stores : t.state.site.stores = (Site.host.answer request s.site).2.1.stores
  result : t.result = Call.report ⟨request, (Site.host.answer request s.site).1⟩

variable (s : Session) {α β : Type} {make : β → Answer}

theorem refused_withInput {input : Except InvalidInput α} {request : α → Request}
    {next : α → Procedure (Except Failure β)} {e : InvalidInput}
    (h : input.map request = .error e) :
    s.converse (Engine.withInput input next) (.ofResult make) =
      s.answered (.failed (.invalid e)) := by
  cases input with
  | ok a => cases h
  | error e' =>
    cases h
    rfl

theorem asked_withInput {input : Except InvalidInput α} {request : α → Request}
    {next : α → Procedure (Except Failure β)} {asked : Request}
    (h : input.map request = .ok asked)
    (hnext : ∀ a, s.Asked (request a) (s.converse (next a) (.ofResult make))) :
    s.Asked asked (s.converse (Engine.withInput input next) (.ofResult make)) := by
  cases input with
  | ok a =>
    cases h
    exact hnext a
  | error e => cases h

theorem asked_ask {request : Request}
    {next : Except StoreError request.Reply → Procedure (Except Failure β)}
    (h : ∀ answer site, let t := (next answer).run Site.host site
      t.calls = [] ∧ t.state.stores = site.stores ∧
        Answer.ofResult make t.result = Call.report ⟨request, answer⟩) :
    s.Asked request (s.converse (ask request next) (.ofResult make)) := by
  obtain ⟨hcalls, hstores, hresult⟩ :=
    h (Site.host.answer request s.site).1 (Site.host.answer request s.site).2.1
  exact ⟨congrArg (_ :: ·) hcalls, hstores, hresult⟩

/-- An errand with invalid input fails and does nothing. -/
theorem step_refused {op : Op} {e : InvalidInput} (h : op.request? = some (.error e)) :
    s.step op = s.answered (.failed (.invalid e)) := by
  cases op <;> simp only [Op.request?, Option.some.injEq, reduceCtorEq] at h
  case add | remove | listed | resetLogin | resetAddress => exact s.refused_withInput h

/-- An errand with valid input asks the stores once and answers with what they say. -/
theorem step_asked {op : Op} {request : Request} (h : op.request? = some (.ok request)) :
    s.Asked request (s.step op) := by
  cases op <;> simp only [Op.request?, Option.some.injEq, Except.ok.injEq, reduceCtorEq] at h
  case add | remove | listed | resetLogin | resetAddress =>
    refine s.asked_withInput h fun _ => s.asked_ask fun answer site => ?_
    cases answer <;> exact ⟨rfl, rfl, rfl⟩
  case listAll | flush =>
    subst h
    refine s.asked_ask fun answer site => ?_
    cases answer <;> exact ⟨rfl, rfl, rfl⟩

/-- An errand that does not fail asked the stores once, and answers with their reply. -/
theorem exists_reply {op : Op} {input : Except InvalidInput Request} (h : op.errand? = some input)
    (hresult : ∀ failure, (s.step op.plain).result ≠ .failed failure) :
    ∃ request reply, input = .ok request ∧ (s.step op).calls = [⟨request, .ok reply⟩] ∧
      (s.step op.plain).result = request.report reply := by
  cases input with
  | error e => exact absurd (congrArg Transcript.result (s.step_refused h)) (hresult _)
  | ok request =>
    obtain ⟨hcalls, -, hanswer⟩ := s.step_asked h
    rw [(s.step_plain op).1] at hcalls
    generalize (Site.host.answer request s.site).1 = answer at hcalls hanswer
    cases answer with
    | error e => exact absurd hanswer (hresult _)
    | ok reply => exact ⟨request, reply, rfl, hcalls, hanswer⟩

/-- A call of an errand is its one request, and the errand answers with what came of it. -/
theorem errand_of_mem_calls {op : Op} {input : Except InvalidInput Request} {call : Call}
    (h : op.errand? = some input) (hcall : call ∈ (s.step op).calls) :
    input = .ok call.request ∧ (s.step op.plain).result = call.report := by
  rw [← (s.step_plain op).1] at hcall
  cases input with
  | error e =>
    rw [s.step_refused h] at hcall
    cases hcall
  | ok request =>
    obtain ⟨hcalls, -, hanswer⟩ := s.step_asked h
    rw [hcalls, List.mem_singleton] at hcall
    subst hcall
    exact ⟨rfl, hanswer⟩

end Session

/-! ## Resets and flushes -/

/-- A reset is an errand: it sets its counter to zero, if its input is valid. -/
theorem Op.errand_of_reset {op : Op} {d : Dimension} {value : String}
    (h : op.reset? = some (d, value)) :
    (∃ e, op.errand? = some (.error e)) ∨ op.errand? = some (.ok (.set (d.key value) 0)) := by
  unfold reset? at h
  unfold errand?
  split at h
  · next login hplain =>
    cases h
    rw [hplain, request?]
    cases value.isEmpty with
    | true => exact .inl ⟨.emptyLogin, rfl⟩
    | false => exact .inr rfl
  · next address hplain =>
    cases h
    rw [hplain, request?]
    cases Address.parse value with
    | error e => exact .inl ⟨e, rfl⟩
    | ok a => exact .inr rfl
  · cases h

/-- Whether a flush succeeds is told by the faults. -/
theorem Site.answer_flush_congr {s s' : Site} (h : s'.stores.faults = s.stores.faults) :
    (Site.host.answer .flush s').1 = (Site.host.answer .flush s).1 := by
  simp only [Site.host, Stores.answer, h]
  split <;> rfl

theorem Engine.run_flush (s : Site) :
    let r := Site.host.answer .flush s
    let t := Engine.flush.run Site.host s
    t.calls = [⟨.flush, r.1⟩] ∧ t.state.stores = r.2.1.stores := by
  simp only [Engine.flush, Procedure.run]
  cases (Site.host.answer .flush s).1 <;> exact ⟨rfl, rfl⟩

namespace Session

/-- Flushes one after the other all end alike. -/
theorem calls_flushes (n : Nat) (site : Site) :
    ((flushes n).run Site.host site).calls =
      List.replicate n ⟨.flush, (Site.host.answer .flush site).1⟩ := by
  induction n generalizing site with
  | zero => rfl
  | succ n ih =>
    obtain ⟨hcalls, hstores⟩ := Engine.run_flush site
    have hfaults : (Engine.flush.run Site.host site).state.stores.faults = site.stores.faults := by
      rw [hstores]
      rcases site.host_answer_cases .flush with ⟨fault, -, -, hanswer⟩ | hanswer <;> rw [hanswer]
      rfl
    rw [flushes, run_bind, List.replicate_succ]
    simp only [hcalls, ih, Site.answer_flush_congr hfaults]
    rfl

end Session

end LoginAdmission
