/-
  The admission law: which counts a run takes, and what is decided by them.

  `admission_law`: in every run of a session without faults, the `i`-th check of a value since its
  counter was last given a value `c` arrives at `min (c + i) (2 ^ 64 - 1)`, whoever asks for it, and
  leaves the counter there. An evaluation checks the login only of a valid attempt that neither list
  covers, the password only when the login is within its limit, and the address only when the
  password is too. The first count over its limit decides, and an attempt with none passes.

  The counters are given a value by the calls of a run that flush and set. `BaseLaw` says which
  operations make these: flushes and resets that go well make just the one, and timers one whenever
  they are due.
-/
import LoginAdmission.Proofs.Counting.Evaluation
import LoginAdmission.Proofs.Errands

namespace LoginAdmission

/-- Whether the next check of a value is within its limit, by the calls so far. -/
def Within (limits : Thresholds) (past : List Call) (d : Dimension) (value : String) : Prop :=
  (Tally.ofCalls (d.key value) past).checked.count ≤ (limits.limit d).toNat

/-- What one operation checks and what comes of it, by the calls before it. -/
structure CheckLaw (limits : Thresholds) (past : List Call) (s : Session) (op : Op) : Prop where
  /-- A single check shows the count it arrived at. -/
  single : ∀ d value, op = .check d value → s.checked op = [d.key value] ∧
    ∃ c, (s.step op).result = .checked c ∧ c.limit = limits.limit d ∧
      c.count.toNat = (Tally.ofCalls (d.key value) past).checked.count ∧
      (c.within = true ↔ Within limits past d value)
  /-- An invalid attempt is not counted, and neither is one that a list covers. -/
  uncounted : ∀ a, op.attempt? = some a → ¬ s.site.Unlisted a → s.checked op = []
  /-- A login over its limit decides, and nothing else is counted. -/
  login : ∀ a, op.attempt? = some a → s.site.Unlisted a → ¬ Within limits past .login a.login →
    s.checked op = [Dimension.login.key a.login] ∧ s.Decides op ⟨false, .loginRate⟩
  /-- A password over its limit decides where the login does not. -/
  password : ∀ a, op.attempt? = some a → s.site.Unlisted a → Within limits past .login a.login →
    ¬ Within limits past .password a.password →
    s.checked op = [Dimension.login.key a.login, Dimension.password.key a.password] ∧
      s.Decides op ⟨false, .passwordRate⟩
  /-- An address over its limit decides where neither login nor password does. -/
  address : ∀ a, op.attempt? = some a → s.site.Unlisted a → Within limits past .login a.login →
    Within limits past .password a.password → ¬ Within limits past .address a.address →
    s.checked op = (a.dimensions.map fun (d, value) => d.key value) ∧
      s.Decides op ⟨false, .addressRate⟩
  /-- An attempt within all three limits passes. -/
  passed : ∀ a, op.attempt? = some a → s.site.Unlisted a → Within limits past .login a.login →
    Within limits past .password a.password → Within limits past .address a.address →
    s.checked op = (a.dimensions.map fun (d, value) => d.key value) ∧
      s.Decides op ⟨true, .passed⟩
  /-- No other operation counts anything. -/
  other : op.attempt? = none → (∀ d value, op ≠ .check d value) → s.checked op = []

/-- The operation, or the one for which its command stands, goes well and does by this call what it
is for: it gives all counters zero, or one. -/
inductive Session.Zeroes (s : Session) (op : Op) : Call → Prop
  | flush (hop : op.plain = .flush) (hdone : (s.step op.plain).result = .done) :
    Zeroes s op ⟨.flush, .ok ()⟩
  | reset {d : Dimension} {value : String} (hop : op.reset? = some (d, value))
    (hdone : (s.step op.plain).result = .done) : Zeroes s op ⟨.set (d.key value) 0, .ok ()⟩

/-- How an operation gives counters a value other than by counting. -/
structure BaseLaw (s : Session) (op : Op) : Prop where
  /-- A flush or a reset that goes well makes just the call for it. -/
  just : ∀ call, s.Zeroes op call → (s.step op).calls = [call]
  /-- A flush always goes well. -/
  flushed : op.plain = .flush → s.Zeroes op ⟨.flush, .ok ()⟩
  /-- Each timer flushes whenever it is due in the time that passes. -/
  due : ∀ millis, op = .advance millis →
    (s.step op).calls = List.replicate (s.schedule.due millis).length ⟨.flush, .ok ()⟩
  /-- Nothing else flushes. -/
  flush : ⟨.flush, .ok ()⟩ ∈ (s.step op).calls →
    s.Zeroes op ⟨.flush, .ok ()⟩ ∨ ∃ millis, op = .advance millis
  /-- Nothing else sets a counter by a call. -/
  set : ∀ key n, ⟨.set key n, .ok ()⟩ ∈ (s.step op).calls → s.Zeroes op ⟨.set key n, .ok ()⟩
  /-- A value that is written past the stores is there, and no call is made. -/
  written : ∀ key n, op = .setCounter key n →
    (s.step op).calls = [] ∧ (s.step op).state.site.count key = n

/-- What holds of the counts of a whole run. -/
structure AdmissionLaw (start : Session) (ops : List Op) : Prop where
  /-- Each check arrives at the next count, and is over the limit when that count is. -/
  arrives : ∀ (d : Dimension) (value : String) before answer after,
    start.timeline ops = before ++ ⟨.increment (d.key value), answer⟩ :: after →
    ∃ n, answer = .ok n ∧ n.toNat = (Tally.ofCalls (d.key value) before).checked.count ∧
      (RateCheck.within ⟨n, start.limits.limit d⟩ = true ↔ Within start.limits before d value)
  /-- The counters read what their tallies say. -/
  leaves : ∀ key, ((start.after ops).site.count key).toNat =
    (Tally.ofCalls key (start.timeline ops)).count
  /-- Since a flush or reset, the checks within a limit below the largest word are the first ones,
  as many as the limit says. -/
  fresh : ∀ (d : Dimension) (value : String) before n after,
    start.timeline ops = before ++ ⟨.increment (d.key value), .ok n⟩ :: after →
    (Tally.ofCalls (d.key value) before).base = 0 →
    (start.limits.limit d).toNat < wordBound - 1 →
    (RateCheck.within ⟨n, start.limits.limit d⟩ = true ↔
      (Tally.ofCalls (d.key value) before).checks + 1 ≤ (start.limits.limit d).toNat)
  /-- Every operation of the run checks what it may. -/
  steps : ∀ before op after, ops = before ++ op :: after →
    CheckLaw start.limits (start.timeline before) (start.after before) op
  /-- Every operation of the run gives values to the counters that it is for. -/
  bases : ∀ before op after, ops = before ++ op :: after → BaseLaw (start.after before) op

/-! ## The law of one operation -/

theorem within_iff {s : Site} (limits : Thresholds) {past : List Call} {d : Dimension}
    {value : String}
    (h : (s.count (d.key value)).toNat = (Tally.ofCalls (d.key value) past).count) :
    s.Within limits d value ↔ Within limits past d value := by
  unfold Site.Within Within
  rw [UInt64.le_iff_toNat_le, Tally.count_checked h]

namespace Session

variable {s : Session} {past : List Call}

theorem step_check (hs : s.site.Sound) (d : Dimension) (value : String)
    (hpast : (s.site.count (d.key value)).toNat = (Tally.ofCalls (d.key value) past).count) :
    s.checked (.check d value) = [d.key value] ∧
      ∃ c, (s.step (.check d value)).result = .checked c ∧ c.limit = s.limits.limit d ∧
        c.count.toNat = (Tally.ofCalls (d.key value) past).checked.count ∧
        (c.within = true ↔ Within s.limits past d value) := by
  obtain ⟨hresult, -, hcalls, -⟩ := Engine.run_check s.limits hs d value
  refine ⟨?_, ⟨saturatingSucc (s.site.count (d.key value)), s.limits.limit d⟩, ?_, rfl,
    Tally.count_checked hpast, ?_⟩
  · simp only [checked, step, converse, hcalls]
    rfl
  · simp only [step, converse, hresult]
  · rw [← within_iff s.limits hpast]
    exact decide_eq_true_iff

/-- An evaluation that the rates decide, seen from any caller. -/
theorem decides_of_rules (hs : s.site.Sound) {op : Op} {a : Attempt} (ha : op.attempt? = some a)
    (hlists : s.site.Unlisted a) {keys : List String} {d : Decision}
    (hrules : Engine.Rules ((Engine.decideByRates s.limits a.dimensions).run Site.host s.site)
      keys d) : s.checked op = keys ∧ s.Decides op d := by
  obtain ⟨hcalls, hevents, hreports⟩ := evaluates_step s ha
  obtain ⟨hresult, hkeys, hannounced⟩ := Engine.shows_evaluate s.limits hs hlists hrules
  refine ⟨?_, hevents.trans hannounced, hreports d hresult⟩
  rw [checked, hcalls]
  exact hkeys

/-- One operation on a sound session whose counters read what their tallies say. -/
theorem checkLaw (hs : s.site.Sound)
    (hpast : ∀ key, (s.site.count key).toNat = (Tally.ofCalls key past).count) (op : Op) :
    CheckLaw s.limits past s op := by
  have hw : ∀ d value, s.site.Within s.limits d value ↔ Within s.limits past d value :=
    fun d value => within_iff s.limits (hpast (d.key value))
  have hrules := Engine.rules_attempt s.limits hs
  simp only [hw] at hrules
  constructor
  case single =>
    rintro d value rfl
    exact step_check hs d value (hpast (d.key value))
  case uncounted =>
    intro a ha hlisted
    rw [checked, (evaluates_step s ha).1]
    exact Engine.checks_evaluate_of_listed s.limits hs hlisted
  case login => exact fun a ha hu hl => decides_of_rules hs ha hu ((hrules a).1 hl)
  case password => exact fun a ha hu hl hp => decides_of_rules hs ha hu ((hrules a).2.1 hl hp)
  case address =>
    exact fun a ha hu hl hp h => decides_of_rules hs ha hu ((hrules a).2.2.1 hl hp h)
  case passed =>
    exact fun a ha hu hl hp h => decides_of_rules hs ha hu ((hrules a).2.2.2 hl hp h)
  case other => exact checked_of_no_attempt s

/-- A flush or a reset that goes well makes just the call for it. -/
theorem Zeroes.calls {op : Op} {call : Call} (h : s.Zeroes op call) :
    (s.step op).calls = [call] := by
  cases h with
  | flush hop hdone =>
    have herrand : op.errand? = some (.ok .flush) := by rw [Op.errand?, hop, Op.request?]
    obtain ⟨request, reply, hrequest, hcalls, -⟩ := s.exists_reply herrand (by simp [hdone])
    cases hrequest
    exact hcalls
  | reset hop hdone =>
    rcases Op.errand_of_reset hop with ⟨e, herrand⟩ | herrand
    · have hfailed := congrArg Transcript.result (s.step_refused herrand)
      rw [hdone] at hfailed
      cases hfailed
    · obtain ⟨request, reply, hrequest, hcalls, -⟩ := s.exists_reply herrand (by simp [hdone])
      cases hrequest
      exact hcalls

/-- On sound stores a flush goes well. -/
theorem zeroes_of_flush (hs : s.site.Sound) {op : Op} (hop : op.plain = .flush) :
    s.Zeroes op ⟨.flush, .ok ()⟩ := by
  have hrequest : Op.request? .flush = some (.ok .flush) := rfl
  refine .flush hop ?_
  rw [hop, (s.step_asked hrequest).result, Site.host_answer_of_sound hs]
  rfl

/-- A call that sets a counter is that of a reset that goes well. -/
theorem zeroes_of_set {op : Op} {key : String} {n : UInt64}
    (h : ⟨.set key n, .ok ()⟩ ∈ (s.step op).calls) : s.Zeroes op ⟨.set key n, .ok ()⟩ := by
  have hask := s.mayAsk_of_mem_calls h
  generalize hbehind : op.behind = behind at hask
  have hreset : ∃ d value, op.reset? = some (d, value) := by
    cases hask with
    | resetLogin =>
      exact ⟨_, _, by rw [Op.reset?, Op.plain_of_behind hbehind nofun nofun]⟩
    | resetAddress =>
      exact ⟨_, _, by rw [Op.reset?, Op.plain_of_behind hbehind nofun nofun]⟩
  obtain ⟨d, value, hop⟩ := hreset
  rcases Op.errand_of_reset hop with ⟨e, herrand⟩ | herrand
  · cases (s.errand_of_mem_calls herrand h).1
  · obtain ⟨hrequest, hreport⟩ := s.errand_of_mem_calls herrand h
    cases hrequest
    exact .reset hop hreport

theorem baseLaw (hs : s.site.Sound) (op : Op) : BaseLaw s op where
  just call h := h.calls
  flushed hop := zeroes_of_flush hs hop
  due := by
    rintro millis rfl
    have hcalls : (s.step (.advance millis)).calls = List.replicate
        (s.schedule.due millis).length ⟨.flush, (Site.host.answer .flush s.site).1⟩ :=
      calls_flushes _ s.site
    rw [hcalls, Site.host_answer_of_sound hs]
    rfl
  flush h := by
    have hask := s.mayAsk_of_mem_calls h
    generalize hbehind : op.behind = behind at hask
    cases hask with
    | flush => exact .inl (zeroes_of_flush hs (Op.plain_of_behind hbehind nofun nofun))
    | due =>
      have hplain := Op.plain_of_behind hbehind nofun nofun
      exact .inr ⟨_, Op.eq_of_plain hplain nofun fun command => by cases command <;> nofun⟩
  set _ _ := zeroes_of_set
  written := by
    rintro key n rfl
    exact ⟨rfl, (Counters.value_set ..).trans (if_pos rfl)⟩

end Session

/-! ## The law of a run -/

theorem within_fresh {limits : Thresholds} {past : List Call} {d : Dimension} {value : String}
    (hbase : (Tally.ofCalls (d.key value) past).base = 0)
    (hlimit : (limits.limit d).toNat < wordBound - 1) :
    Within limits past d value ↔
      (Tally.ofCalls (d.key value) past).checks + 1 ≤ (limits.limit d).toNat := by
  simp only [Within, Tally.checked, Tally.count, hbase]
  omega

/-- In a run on sound stores whose counters begin at zero, a check arrives at the next count of its
tally and is over the limit when that count is. -/
theorem Session.check_arrives {start : Session} (hs : start.site.Sound)
    (hzero : ∀ key, (start.site.count key).toNat = Tally.start.count) {ops : List Op}
    (hops : ∀ fault, Op.fail fault ∉ ops) {d : Dimension} {value : String}
    {before after : List Call} {answer : Except StoreError UInt64}
    (h : start.timeline ops = before ++ ⟨.increment (d.key value), answer⟩ :: after) :
    ∃ n, answer = .ok n ∧ n.toNat = (Tally.ofCalls (d.key value) before).checked.count ∧
      (RateCheck.within ⟨n, start.limits.limit d⟩ = true ↔ Within start.limits before d value) := by
  have hrun := (explains_timeline hs hops (hzero (d.key value))).2.1
  rw [h] at hrun
  obtain ⟨n, hanswer, hn⟩ := hrun.next
  refine ⟨n, hanswer, hn, ?_⟩
  unfold Within Tally.ofCalls
  rw [← hn]
  exact decide_eq_true_iff.trans UInt64.le_iff_toNat_le

/-- Every run of a session in which no fault is laid on the stores obeys the admission law. -/
theorem admission_law (limits : Thresholds) (lists : ListStore) (sink : Sink) (audit : AuditTrail)
    (historyCapacity : Nat) (ops : List Op) (hops : ∀ fault, Op.fail fault ∉ ops) :
    AdmissionLaw (Session.create limits lists sink audit historyCapacity) ops := by
  have hs : (Session.create limits lists sink audit historyCapacity).site.Sound := rfl
  generalize hstart : Session.create limits lists sink audit historyCapacity = start at hs ⊢
  have hzero : ∀ key, (start.site.count key).toNat = Tally.start.count := by
    subst hstart
    exact fun key => rfl
  constructor
  case arrives => exact fun d value before answer after h => Session.check_arrives hs hzero hops h
  case leaves => exact fun key => (Session.explains_timeline hs hops (hzero key)).2.2
  case fresh =>
    intro d value before n after h hbase hlimit
    obtain ⟨m, hm, -, hwithin⟩ := Session.check_arrives hs hzero hops h
    cases hm
    exact hwithin.trans (within_fresh hbase hlimit)
  case steps =>
    intro before op after h
    have hbefore : ∀ fault, Op.fail fault ∉ before :=
      fun fault hf => hops fault (h ▸ List.mem_append_left _ hf)
    rw [← Session.after_limits start before]
    exact Session.checkLaw (Session.explains_timeline hs hbefore (hzero "")).1
      (fun key => (Session.explains_timeline hs hbefore (hzero key)).2.2) op
  case bases =>
    intro before op after h
    have hbefore : ∀ fault, Op.fail fault ∉ before :=
      fun fault hf => hops fault (h ▸ List.mem_append_left _ hf)
    exact Session.baseLaw (Session.explains_timeline hs hbefore (hzero "")).1 op

/-- A run with a login over its limit of one, an address given a count, and a flush. -/
theorem admission_law_over_limit :
    (∀ fault, Op.fail fault ∉ [Op.evaluate ⟨"ann", "pw", "10.0.0.1"⟩,
      .gate ⟨"ann", "pw", "10.0.0.1"⟩ .welcoming, .setCounter "address:10.0.0.1" 7, .flush]) ∧
    AdmissionLaw (Session.create ⟨1, 5, 5⟩ (.memory .empty) .discard .absent 1)
      [.evaluate ⟨"ann", "pw", "10.0.0.1"⟩, .gate ⟨"ann", "pw", "10.0.0.1"⟩ .welcoming,
        .setCounter "address:10.0.0.1" 7, .flush] :=
  ⟨by simp, admission_law _ _ _ _ _ _ (by simp)⟩

end LoginAdmission
