/-
  Evaluations: which counters they check, and how the counts decide.

  The rates are read at the site before the evaluation: the three keys of an attempt belong to
  different dimensions, so no check moves the counter of a later one.

  Main statements: `Engine.rules_attempt` and `Engine.shows_evaluate` (the first count over its
  limit decides an attempt that neither list covers, and no later one is checked),
  `Engine.checks_evaluate_of_listed` (any other attempt is not counted), `Session.evaluates_step`
  (all callers hold this conversation) and `Session.checked_of_no_attempt` (no operation but an
  evaluation or a single check counts).
-/
import LoginAdmission.Proofs.Counting.Tally
import LoginAdmission.Proofs.Except
import LoginAdmission.Proofs.Requests

namespace LoginAdmission

open Procedure

/-! ## What is asked and what is answered -/

/-- The attempt that a command has evaluated, if it is that kind of command. -/
def Command.attempt? : Command → Option Attempt
  | .check attempt => some attempt
  | _ => none

/-- The attempt that an operation evaluates, if it evaluates one. -/
def Op.attempt? : Op → Option Attempt
  | .evaluate attempt => some attempt
  | .gate attempt handler => if handler.isReady then some attempt else none
  | .execute _ command => command.attempt?
  | .line text =>
    match Command.ofLine text with
    | .ok command => command.attempt?
    | .error _ => none
  | .json text =>
    match Wire.ofText (α := Command) text with
    | .ok command => command.attempt?
    | .error _ => none
  | _ => none

/-- What an answer tells of a decision. A request that reached the handler was allowed; a command
whose record is turned away tells nothing. -/
def Answer.Reports (d : Decision) : Answer → Prop
  | .decision d' => d' = d
  | .passage (.ok _) _ => d.allowed = true
  | .passage (.error (.inner _)) _ => d.allowed = true
  | .passage (.error (.denied reason)) _ => d = ⟨false, reason⟩
  | .command (.ok outcome) => outcome = .decision d
  | .command (.error (.audit _)) => True
  | _ => False

/-- The keys of the counters that calls check, in order. -/
def checks (calls : List Call) : List String :=
  calls.filterMap fun call =>
    match call.request with
    | .increment key => some key
    | _ => none

theorem checks_append (calls more : List Call) :
    checks (calls ++ more) = checks calls ++ checks more :=
  List.filterMap_append

/-! ## Keys of counters -/

namespace Dimension

theorem toList_key (d : Dimension) (value : String) :
    (d.key value).toList = d.name.toList ++ ':' :: value.toList := by
  simp [key]

/-- A key names one value of one dimension. -/
theorem key_injective {d d' : Dimension} {value value' : String}
    (h : d.key value = d'.key value') : d = d' ∧ value = value' := by
  have hl := congrArg String.toList h
  rw [toList_key, toList_key] at hl
  cases d <;> cases d' <;> simp_all [name, String.toList_inj]

theorem key_ne {d d' : Dimension} (h : d ≠ d') (value value' : String) :
    d.key value ≠ d'.key value' :=
  fun hk => h (key_injective hk).1

end Dimension

/-! ## The rates of one attempt -/

namespace Site

/-- The site once a value was checked. -/
def counted (s : Site) (d : Dimension) (value : String) : Site :=
  { s with stores := { s.stores with counters := (s.stores.counters.increment (d.key value)).2 } }

/-- Whether the next check of a value is within its limit. -/
def Within (s : Site) (limits : Thresholds) (d : Dimension) (value : String) : Prop :=
  saturatingSucc (s.count (d.key value)) ≤ limits.limit d

theorem sound_counted {s : Site} (hs : s.Sound) (d : Dimension) (value : String) :
    (s.counted d value).Sound := hs

/-- A check leaves the counters of the other dimensions alone. -/
theorem within_counted (s : Site) (limits : Thresholds) {d d' : Dimension} (h : d ≠ d')
    (value value' : String) :
    (s.counted d value).Within limits d' value' ↔ s.Within limits d' value' := by
  unfold Within count counted
  simp only [Counters.increment, Counters.value_set, if_neg (Dimension.key_ne h value value')]

end Site

namespace Engine

variable (limits : Thresholds) {s : Site}

theorem run_check (hs : s.Sound) (d : Dimension) (value : String) :
    let n := saturatingSucc (s.count (d.key value))
    let r := (check limits d value).run Site.host s
    r.result = .ok ⟨n, limits.limit d⟩ ∧ r.state = s.counted d value ∧
      r.calls = [⟨.increment (d.key value), .ok n⟩] ∧ r.events = [] := by
  simp only [check, run, Site.host_answer_of_sound hs, Stores.serve, Counters.increment]
  split <;> exact ⟨rfl, rfl, rfl, rfl⟩

/-- How the rates decide: the keys that are checked, and the decision. -/
def Rules (r : Transcript Site (Except Failure Decision)) (keys : List String) (d : Decision) :
    Prop :=
  r.result = .ok d ∧ checks r.calls = keys ∧ r.events = []

theorem rules_nil (s : Site) :
    Rules ((decideByRates limits []).run Site.host s) [] ⟨true, .passed⟩ :=
  ⟨rfl, rfl, rfl⟩

theorem rules_over (hs : s.Sound) {d : Dimension} {value : String} (h : ¬ s.Within limits d value)
    (rest : List (Dimension × String)) :
    Rules ((decideByRates limits ((d, value) :: rest)).run Site.host s) [d.key value]
      ⟨false, d.reason⟩ := by
  obtain ⟨hresult, -, hcalls, hevents⟩ := run_check limits hs d value
  have hover : RateCheck.within ⟨saturatingSucc (s.count (d.key value)), limits.limit d⟩ = false :=
    decide_eq_false h
  unfold Rules
  simp only [decideByRates, run_bind, hresult, hcalls, hevents, hover]
  exact ⟨rfl, rfl, rfl⟩

theorem rules_within (hs : s.Sound) {d : Dimension} {value : String} (h : s.Within limits d value)
    {rest : List (Dimension × String)} {keys : List String} {verdict : Decision}
    (hrest : Rules ((decideByRates limits rest).run Site.host (s.counted d value)) keys verdict) :
    Rules ((decideByRates limits ((d, value) :: rest)).run Site.host s) (d.key value :: keys)
      verdict := by
  obtain ⟨hresult, hstate, hcalls, hevents⟩ := run_check limits hs d value
  have hwithin : RateCheck.within ⟨saturatingSucc (s.count (d.key value)), limits.limit d⟩ = true :=
    decide_eq_true h
  obtain ⟨hverdict, hkeys, hquiet⟩ := hrest
  unfold Rules
  simp only [decideByRates, run_bind, hresult, hstate, hcalls, hevents, hwithin, if_true,
    checks_append, hverdict, hkeys, hquiet]
  exact ⟨trivial, rfl, rfl⟩

/-- The first dimension over its limit decides an attempt, and no later one is checked. -/
theorem rules_attempt (hs : s.Sound) (a : Attempt) :
    let r := (decideByRates limits a.dimensions).run Site.host s
    (¬ s.Within limits .login a.login →
      Rules r [Dimension.login.key a.login] ⟨false, .loginRate⟩) ∧
    (s.Within limits .login a.login → ¬ s.Within limits .password a.password →
      Rules r [Dimension.login.key a.login, Dimension.password.key a.password]
        ⟨false, .passwordRate⟩) ∧
    (s.Within limits .login a.login → s.Within limits .password a.password →
      ¬ s.Within limits .address a.address →
      Rules r (a.dimensions.map fun (d, value) => d.key value) ⟨false, .addressRate⟩) ∧
    (s.Within limits .login a.login → s.Within limits .password a.password →
      s.Within limits .address a.address →
      Rules r (a.dimensions.map fun (d, value) => d.key value) ⟨true, .passed⟩) := by
  have hs' := Site.sound_counted hs .login a.login
  have hs'' := Site.sound_counted hs' .password a.password
  have hpassword : (s.counted .login a.login).Within limits .password a.password ↔
      s.Within limits .password a.password :=
    Site.within_counted s limits (by decide) a.login a.password
  have haddress : ((s.counted .login a.login).counted .password a.password).Within limits .address
      a.address ↔ s.Within limits .address a.address :=
    (Site.within_counted _ limits (by decide) a.password a.address).trans
      (Site.within_counted s limits (by decide) a.login a.address)
  refine ⟨fun hl => ?_, fun hl hp => ?_, fun hl hp ha => ?_, fun hl hp ha => ?_⟩
  · exact rules_over limits hs hl _
  · exact rules_within limits hs hl (rules_over limits hs' (fun h => hp (hpassword.mp h)) _)
  · exact rules_within limits hs hl (rules_within limits hs' (hpassword.mpr hp)
      (rules_over limits hs'' (fun h => ha (haddress.mp h)) _))
  · exact rules_within limits hs hl (rules_within limits hs' (hpassword.mpr hp)
      (rules_within limits hs'' (haddress.mpr ha) (rules_nil limits _)))

end Engine

/-! ## The lists in front of the rates -/

theorem ListStore.enumerate_state (store : ListStore) (list : AccessList) :
    (store.enumerate list).2.1 = store := by
  cases store with
  | memory lists => rfl
  | database db =>
    simp only [enumerate, Storage.Database.enumerate]
    cases db.openTable list with
    | error e => cases e <;> rfl
    | ok t =>
      simp only [Bind.bind, Except.bind]
      split <;> rfl

theorem ListStore.contains_state (store : ListStore) (list : AccessList) (subnet : Subnet) :
    (store.contains list subnet).2.1 = store := by
  cases store with
  | memory lists => rfl
  | database db =>
    simp only [contains, Storage.Database.contains]
    cases db.openTable list with
    | error e => cases e <;> rfl
    | ok t => rfl

/-- Whether a list answers and covers the address, or answers and does not. -/
def Site.listCovers (s : Site) (list : AccessList) (address : Address) : Except StoreError Bool :=
  (s.stores.lists.enumerate list).1.map (Entry.covers address)

/-- The attempt is valid and both lists answer that they do not cover its address. -/
def Site.Unlisted (s : Site) (attempt : Attempt) : Prop :=
  ∃ address, attempt.validate = .ok address ∧ ∀ list, s.listCovers list address = .ok false

namespace Engine

variable (limits : Thresholds) {s : Site}

theorem run_covers (hs : s.Sound) (list : AccessList) (address : Address) :
    let r := (covers list address).run Site.host s
    r.result = (s.listCovers list address).mapError .ofStore ∧ r.state = s ∧
      checks r.calls = [] ∧ r.events = [] := by
  simp only [covers, query, run, Site.host_answer_of_sound hs, Stores.serve, Stores.withLists,
    ListStore.enumerate_state, Site.listCovers]
  cases (s.stores.lists.enumerate list).1 <;> exact ⟨rfl, rfl, rfl, rfl⟩

/-- A list that fails or covers the address keeps the rates out of the decision. -/
theorem checks_decide_of_listed (hs : s.Sound) (attempt : Attempt) {address : Address}
    (h : ¬ ∀ list, s.listCovers list address = .ok false) :
    checks ((decide limits attempt address).run Site.host s).calls = [] := by
  obtain ⟨hdeny, hstate, hquiet, -⟩ := run_covers hs .deny address
  obtain ⟨hallow, -, hquiet', -⟩ := run_covers hs .allow address
  simp only [decide, run_bind, hstate, checks_append, hquiet, hdeny]
  cases hd : s.listCovers .deny address with
  | error e => rfl
  | ok covered =>
    cases covered with
    | true => rfl
    | false =>
      simp only [mapError_ok, run_bind, checks_append, hquiet', hallow]
      cases ha : s.listCovers .allow address with
      | error e => rfl
      | ok covered =>
        cases covered with
        | true => rfl
        | false => exact absurd (fun list => by cases list <;> assumption) h

/-- The rates decide an attempt that neither list covers. -/
theorem run_decide_of_unlisted (hs : s.Sound) (attempt : Attempt) {address : Address}
    (h : ∀ list, s.listCovers list address = .ok false) {keys : List String} {d : Decision}
    (hrules : Rules ((decideByRates limits attempt.dimensions).run Site.host s) keys d) :
    Rules ((decide limits attempt address).run Site.host s) keys d := by
  obtain ⟨hdeny, hstate, hquiet, hevents⟩ := run_covers hs .deny address
  obtain ⟨hallow, hstate', hquiet', hevents'⟩ := run_covers hs .allow address
  obtain ⟨hresult, hkeys, hrest⟩ := hrules
  rw [h .deny] at hdeny
  rw [h .allow] at hallow
  unfold Rules
  simp only [decide, run_bind, hdeny, hstate, hquiet, hevents, hallow, hstate', hquiet', hevents',
    mapError_ok, checks_append, hresult, hkeys, hrest]
  exact ⟨trivial, rfl, rfl⟩

/-- An evaluation, seen by its checks and its decision. -/
theorem checks_evaluate_of_listed (hs : s.Sound) {attempt : Attempt} (h : ¬ s.Unlisted attempt) :
    checks ((evaluate limits attempt).run Site.host s).calls = [] := by
  unfold evaluate
  cases hv : attempt.validate with
  | error e => rfl
  | ok address =>
    have hlisted : ¬ ∀ list, s.listCovers list address = .ok false :=
      fun hl => h ⟨address, hv, hl⟩
    simp only [run_bind, checks_append, checks_decide_of_listed limits hs attempt hlisted]
    cases ((decide limits attempt address).run Site.host s).result <;> rfl

/-- What an evaluation that ends well shows: its decision, once announced, and the keys it
checked. -/
def Shows (r : Transcript Site (Except Failure Decision)) (keys : List String) (d : Decision) :
    Prop :=
  r.result = .ok d ∧ checks r.calls = keys ∧ r.events = [.evaluated d]

theorem shows_evaluate (hs : s.Sound) {attempt : Attempt} (h : s.Unlisted attempt)
    {keys : List String} {d : Decision}
    (hrules : Rules ((decideByRates limits attempt.dimensions).run Site.host s) keys d) :
    Shows ((evaluate limits attempt).run Site.host s) keys d := by
  obtain ⟨address, hv, hlists⟩ := h
  obtain ⟨hresult, hkeys, hevents⟩ := run_decide_of_unlisted limits hs attempt hlists hrules
  unfold Shows evaluate
  simp only [hv, run_bind, hresult, checks_append, hkeys, hevents]
  exact ⟨rfl, List.append_nil keys, rfl⟩

end Engine

/-! ## The callers -/

namespace Session

/-- The keys that an operation checks. -/
def checked (s : Session) (op : Op) : List String := checks (s.step op).calls

/-- The operation ends with this decision: it is announced, once, and the answer reports it. -/
def Decides (s : Session) (op : Op) (d : Decision) : Prop :=
  (s.step op).events = [.evaluated d] ∧ (s.step op).result.Reports d

/-- The operation holds the conversation of an evaluation and reports its decision. -/
def Evaluates (s : Session) (attempt : Attempt) (t : Step) : Prop :=
  let r := (Engine.evaluate s.limits attempt).run Site.host s.site
  t.calls = r.calls ∧ t.events = r.events ∧ ∀ d, r.result = .ok d → t.result.Reports d

theorem evaluates_execute (s : Session) (origin : Origin) (attempt : Attempt) :
    s.Evaluates attempt (s.execute origin (.check attempt)) := by
  unfold Evaluates execute
  rw [Control.run_carryOut, Control.perform, run_map]
  refine ⟨rfl, rfl, fun d hd => ?_⟩
  simp only [hd, Except.map, Outcome.ofResult, Books.enter]
  cases s.books.audit <;> trivial

theorem evaluates_gate (s : Session) (attempt : Attempt) {handler : Handler}
    (h : handler.isReady = true) : s.Evaluates attempt (s.gate attempt handler) := by
  unfold Evaluates gate
  rw [Gate.pass_of_ready h, run_map]
  refine ⟨rfl, rfl, fun d hd => ?_⟩
  obtain ⟨allowed, reason⟩ := d
  cases allowed with
  | false => simp [hd, Gate.passage, Answer.Reports]
  | true =>
    cases hreply : handler.reply attempt <;>
      simp [hd, Gate.passage, hreply, mapError_ok, mapError_error, Answer.Reports]

theorem evaluates_executeRead (s : Session) {read : Except CommandError Command}
    {command : Command} {attempt : Attempt} (hread : read = .ok command)
    (hcommand : command.attempt? = some attempt) : s.Evaluates attempt (s.executeRead read) := by
  subst hread
  cases command <;> cases hcommand
  exact evaluates_execute _ _ attempt

/-- Every operation that evaluates an attempt holds the same conversation. -/
theorem evaluates_step (s : Session) {op : Op} {attempt : Attempt}
    (h : op.attempt? = some attempt) : s.Evaluates attempt (s.step op) := by
  cases op with
  | evaluate a =>
    cases h
    exact ⟨rfl, rfl, fun d hd => by simp [step, converse, hd, Answer.ofResult, Answer.Reports]⟩
  | gate a handler =>
    by_cases hready : handler.isReady = true
    · simp only [Op.attempt?, if_pos hready] at h
      cases h
      exact evaluates_gate s attempt hready
    · simp [Op.attempt?, hready] at h
  | execute ticket command =>
    cases command <;> cases h
    exact evaluates_execute s _ attempt
  | line text =>
    simp only [Op.attempt?] at h
    split at h
    · next command hread => exact evaluates_executeRead s (by rw [hread]; rfl) h
    · cases h
  | json text =>
    simp only [Op.attempt?] at h
    split at h
    · next command hread => exact evaluates_executeRead s (by rw [hread]; rfl) h
    · cases h
  | _ => cases h

end Session

/-! ## Operations that count nothing -/

/-- A request that checks no counter. -/
def Request.CountsNothing (request : Request) : Prop := ∀ key, request ≠ .increment key

/-- A request that checks no counter and writes nothing but zeros. -/
def Request.Quiet : Request → Prop
  | .increment _ => False
  | .set _ n => n = 0
  | _ => True

theorem Request.Quiet.countsNothing {request : Request} (h : request.Quiet) :
    request.CountsNothing := by
  rintro key rfl
  exact h

theorem checks_eq_nil {calls : List Call} (h : ∀ call ∈ calls, call.request.CountsNothing) :
    checks calls = [] := by
  refine List.filterMap_eq_nil_iff.mpr fun call hcall => ?_
  have hcall := h call hcall
  split
  · next key hkey => exact absurd hkey (hcall key)
  · rfl

namespace Op

/-- An operation that evaluates an attempt comes down to its evaluation. -/
theorem attempt?_eq_some_iff {op : Op} {attempt : Attempt} :
    op.attempt? = some attempt ↔ op.behind = .evaluate attempt := by
  have hcommand : ∀ command : Command, command.attempt? = some attempt ↔
      command.operation.getD .limits = .evaluate attempt := by
    intro command
    cases command <;> simp [Command.attempt?, Command.operation]
  cases op with
  | gate a handler =>
    simp only [attempt?, behind]
    split <;> simp
  | execute ticket command => exact hcommand command
  | line text =>
    simp only [attempt?, behind, plain, command?]
    cases Command.ofLine text with
    | ok command => exact hcommand command
    | error e => simp [Except.toOption]
  | json text =>
    simp only [attempt?, behind, plain, command?]
    cases Wire.ofText (α := Command) text with
    | ok command => exact hcommand command
    | error e => simp [Except.toOption]
  | _ => simp [attempt?, behind, plain, command?]

/-- No command stands for a single check. -/
theorem eq_check_of_behind {op : Op} {d : Dimension} {value : String}
    (h : op.behind = .check d value) : op = .check d value :=
  eq_of_plain (plain_of_behind h nofun nofun) nofun fun command => by cases command <;> nofun

end Op

namespace Session

/-- Nothing but an evaluation or a single check asks for a counter to be incremented, and no
operation for it to be written with anything but zero. -/
theorem asks_talk (s : Session) {op : Op} (h : op.attempt? = none)
    (hcheck : ∀ d value, op ≠ .check d value) : (s.talk op).Asks Request.Quiet := by
  refine (s.asks_behind op).mono fun request hasks => ?_
  have hevaluate : ∀ attempt, op.behind ≠ .evaluate attempt := by
    intro attempt heq
    cases h.symm.trans (Op.attempt?_eq_some_iff.mpr heq)
  have hbehind : ∀ d value, op.behind ≠ .check d value :=
    fun d value heq => hcheck d value (Op.eq_check_of_behind heq)
  generalize op.behind = behind at hasks hevaluate hbehind
  cases hasks with
  | count => exact absurd rfl (hevaluate _)
  | check => exact absurd rfl (hbehind _ _)
  | resetLogin | resetAddress => rfl
  | _ => trivial

theorem checked_of_no_attempt (s : Session) {op : Op} (h : op.attempt? = none)
    (hcheck : ∀ d value, op ≠ .check d value) : s.checked op = [] := by
  unfold checked
  rw [(s.step_site op).1]
  exact checks_eq_nil fun call hcall =>
    (request_of_mem_calls Site.host (asks_talk s h hcheck) s.site call hcall).countsNothing

end Session

end LoginAdmission
