/-
  A flush is a fresh start, and a counter at zero is as good as none.

  Two sessions are equivalent when they have the same lists, limits, faults and running timers,
  audit trails that both refuse or both do not, and counters that read the same. They may differ in
  which counters at zero are tracked, in what their clocks show, and in all that is only recorded:
  the buffer of events, the history, the audit records and the number of requests that were handled.

  Main statement: `fresh_start_law`. Equivalent sessions cannot be told apart by any run of
  operations that do not ask for records: they match (`Session.Matches`), and no request sees
  through counters that read the same. A session whose counters were flushed is equivalent to one
  where none was ever counted, and a reset of a counter that reads zero leaves an equivalent
  session.
-/
import LoginAdmission.Proofs.Counting.Likeness

namespace LoginAdmission

open Procedure

/-- Two sessions of the same setting whose counters read the same, a missing one reading zero. -/
structure Session.Equivalent (s s' : Session) : Prop extends s.SameSetting s' where
  counters : s.site.stores.counters.SameValues s'.site.stores.counters

/-- An operation does the same on two sessions and leaves equivalent ones. -/
structure Session.AgreeOn (s s' : Session) (op : Op) : Prop where
  result : (s'.step op).result.withoutTotals = (s.step op).result.withoutTotals
  calls : (s'.step op).calls = (s.step op).calls
  events : (s'.step op).events = (s.step op).events
  /-- As many requests are handled on the one as on the other. -/
  handled : (s'.step op).state.handled + s.handled = (s.step op).state.handled + s'.handled
  state : (s.step op).state.Equivalent (s'.step op).state

/-- No run of operations tells two sessions apart. -/
structure Session.Indistinguishable (s s' : Session) : Prop where
  steps : ∀ (ops : List Op) (op : Op), (∀ op' ∈ op :: ops, ¬ op'.ConcernsRecords) →
    (s.after ops).AgreeOn (s'.after ops) op
  ends : ∀ ops : List Op, (∀ op ∈ ops, ¬ op.ConcernsRecords) →
    (s.after ops).Equivalent (s'.after ops)

/-- Every counter of the site reads zero. -/
def Site.Uncounted (s : Site) : Prop := ∀ key, s.count key = 0

/-- An operation that cannot move a counter away from zero. -/
structure Op.CountsNothing (op : Op) : Prop where
  attempt : op.attempt? = none
  check : ∀ d value, op ≠ .check d value
  write : ∀ key n, op ≠ .setCounter key n

/-- What cannot be observed of the counters of a session. -/
structure FreshStartLaw (s : Session) : Prop where
  /-- Equivalent sessions cannot be told apart. -/
  equivalent : ∀ s', s.Equivalent s' → s.Indistinguishable s'
  /-- Once an operator has flushed the counters, a session cannot be told from any of the same
  setting whose counters all read zero. -/
  flushed : ∀ fresh : Session, (s.step .flush).result = .done → fresh.site.Uncounted →
    (s.step .flush).state.SameSetting fresh → (s.step .flush).state.Indistinguishable fresh
  /-- Neither can it once a timer has. -/
  flushedByTimer : ∀ (millis : Nat) (fresh : Session),
    (⟨.flush, .ok ()⟩ : Call) ∈ (s.step (.advance millis)).calls → fresh.site.Uncounted →
    (s.step (.advance millis)).state.SameSetting fresh →
    (s.step (.advance millis)).state.Indistinguishable fresh
  /-- A session without any attempt is such a one. -/
  untried : ∀ ops, s.site.Uncounted → (∀ op ∈ ops, op.CountsNothing) →
    (s.after ops).site.Uncounted
  /-- The reset of a counter that reads zero cannot be observed afterwards. -/
  reset : ∀ op d value, op.reset? = some (d, value) → s.site.count (d.key value) = 0 →
    s.Indistinguishable (s.step op).state

/-! ## Equivalent sessions -/

namespace Session.Equivalent

variable {s s' : Session}

theorem matches_sameValues (h : s.Equivalent s') : s.Matches Counters.SameValues s' :=
  ⟨h.toSameSetting, h.counters⟩

theorem step (h : s.Equivalent s') {op : Op} (hop : ¬ op.ConcernsRecords) : s.AgreeOn s' op := by
  have hR := Counters.congruence_sameValues
  obtain ⟨hcalls, hevents, hstate⟩ := h.matches_sameValues.step hR op.countsOnly_all
  constructor
  case result =>
    exact h.matches_sameValues.result hR op.countsOnly_all (fun _ _ _ _ => trivial) hop
  case calls => exact hcalls
  case events => exact hevents
  case handled => exact h.matches_sameValues.handled hR op.countsOnly_all
  case state => exact ⟨hstate.toSameSetting, hstate.counters⟩

theorem after (h : s.Equivalent s') (ops : List Op) : (s.after ops).Equivalent (s'.after ops) :=
  have hmatches := h.matches_sameValues.after Counters.congruence_sameValues
    fun op (_ : op ∈ ops) => op.countsOnly_all
  ⟨hmatches.toSameSetting, hmatches.counters⟩

/-- Equivalent sessions cannot be told apart. -/
theorem indistinguishable (h : s.Equivalent s') : s.Indistinguishable s' where
  steps ops _ hops := (h.after ops).step (List.forall_mem_cons.mp hops).1
  ends ops _ := h.after ops

end Session.Equivalent

/-! ## Counters at zero -/

/-- Two sessions of the same setting are equivalent when no counter of either was counted. -/
theorem Session.SameSetting.equivalent {s s' : Session} (h : s.SameSetting s')
    (hs : s.site.Uncounted) (hs' : s'.site.Uncounted) : s.Equivalent s' :=
  ⟨h, fun key => (hs' key).trans (hs key).symm⟩

/-- A counter that reads zero may be set to zero. -/
theorem Counters.SameValues.set_zero {c c' : Counters} (h : c.SameValues c') {key : String}
    (hzero : c.value key = 0) : c.SameValues (c'.set key 0) := by
  intro other
  rw [value_set]
  split
  · next heq => exact heq ▸ hzero.symm
  · exact h other

/-- A quiet request leaves no counter counted, if none was or if it is a flush that succeeds. -/
theorem Site.uncounted_answer {s : Site} {request : Request} (hquiet : request.Quiet)
    (h : s.Uncounted ∨
      (⟨.flush, .ok ()⟩ : Call) = ⟨request, (Site.host.answer request s).1⟩) :
    (Site.host.answer request s).2.1.Uncounted := by
  simp only [Site.host, Stores.answer] at h ⊢
  cases hfault : s.stores.faults.find? (·.hits request) with
  | some fault =>
    rw [hfault] at h
    rcases h with h | h
    · exact h
    · cases request <;> cases h
  | none =>
    cases request with
    | increment key => exact absurd hquiet id
    | flush => exact fun key => rfl
    | set key n =>
      have hzero : n = 0 := hquiet
      subst hzero
      have hs : s.Uncounted := by
        refine h.resolve_right fun heq => ?_
        cases heq
      intro other
      simp only [Stores.serve, Site.count, Counters.value_set]
      split
      · rfl
      · exact hs other
    | enumerate | contains | add | remove =>
      refine h.resolve_right fun heq => ?_
      cases heq

/-- A conversation of quiet requests leaves no counter counted, if none was or if it holds a flush
that succeeds. -/
theorem Procedure.uncounted_run {α : Type} {p : Procedure α} (hp : p.Asks Request.Quiet) {s : Site}
    (h : s.Uncounted ∨ ⟨.flush, .ok ()⟩ ∈ (p.run Site.host s).calls) :
    (p.run Site.host s).state.Uncounted := by
  induction p generalizing s with
  | done a => exact h.resolve_right nofun
  | ask request next ih =>
    refine ih _ (hp.2 _) ?_
    by_cases hflush : s.Uncounted ∨
        (⟨.flush, .ok ()⟩ : Call) = ⟨request, (Site.host.answer request s).1⟩
    · exact .inl (Site.uncounted_answer hp.1 hflush)
    · have hcall := h.resolve_left fun hs => hflush (.inl hs)
      exact .inr (List.mem_of_ne_of_mem (fun heq => hflush (.inr heq)) hcall)
  | note line next ih => exact ih hp h
  | announce event next ih => exact ih hp (h.imp_left fun hs => hs)

/-! ## Flushes and resets -/

namespace Session

variable {s : Session} {op : Op}

/-- A reset of a counter that reads zero leaves an equivalent session. -/
theorem equivalent_reset (s : Session) {d : Dimension} {value : String}
    (h : op.reset? = some (d, value)) (hzero : s.site.count (d.key value) = 0) :
    s.Equivalent (s.step op).state := by
  have hmatches : s.Matches Counters.SameValues (s.step op).state :=
    s.matches_reset h (fun _ => rfl) fun c' hc' => hc'.set_zero hzero
  exact ⟨hmatches.toSameSetting, hmatches.counters⟩

/-- An operation that counts nothing leaves no counter counted, if none was or if it flushes the
counters. -/
theorem uncounted_step (hop : op.CountsNothing)
    (h : s.site.Uncounted ∨ ⟨.flush, .ok ()⟩ ∈ (s.step op).calls) :
    (s.step op).state.site.Uncounted := by
  obtain ⟨hcalls, -, hsite⟩ := s.step_site op
  rw [hcalls] at h
  have hwritten : op.written = [] := by
    cases op with
    | setCounter key n => exact absurd rfl (hop.write key n)
    | _ => rfl
  rw [hsite]
  intro key
  rw [Site.count, Op.touch_counters hwritten]
  exact Procedure.uncounted_run (s.asks_talk hop.attempt hop.check) h key

theorem uncounted_after (hs : s.site.Uncounted) {ops : List Op}
    (hops : ∀ op ∈ ops, op.CountsNothing) : (s.after ops).site.Uncounted := by
  induction ops generalizing s with
  | nil => exact hs
  | cons op ops ih =>
    obtain ⟨hop, hops⟩ := List.forall_mem_cons.mp hops
    exact ih (uncounted_step hop (.inl hs)) hops

/-- A flush that an operator asked for and that is reported as done reached the counters. -/
theorem flush_mem_calls (h : (s.step .flush).result = .done) :
    ⟨.flush, .ok ()⟩ ∈ (s.step .flush).calls := by
  simp only [step, converse, Engine.flushCounters, Engine.flush, run_map, Procedure.run] at h ⊢
  cases hanswer : (Site.host.answer .flush s.site).1 with
  | error e => simp [hanswer, Procedure.run, Answer.ofResult] at h
  | ok reply => exact List.mem_cons_self

/-- A session whose counters an operation flushed cannot be told from one of the same setting with
no counter counted. -/
theorem indistinguishable_flushed (hop : op.CountsNothing)
    (h : ⟨.flush, .ok ()⟩ ∈ (s.step op).calls) {fresh : Session} (hfresh : fresh.site.Uncounted)
    (hsetting : (s.step op).state.SameSetting fresh) :
    (s.step op).state.Indistinguishable fresh :=
  (hsetting.equivalent (uncounted_step hop (.inr h)) hfresh).indistinguishable

end Session

/-- No run tells equivalent sessions apart; a flush leaves a session like one without attempts, and
the reset of a counter at zero an equivalent one. -/
theorem fresh_start_law (s : Session) : FreshStartLaw s := by
  have hflush : Op.CountsNothing .flush := ⟨rfl, nofun, nofun⟩
  have hadvance : ∀ millis, Op.CountsNothing (.advance millis) := fun _ => ⟨rfl, nofun, nofun⟩
  constructor
  case equivalent => exact fun s' h => h.indistinguishable
  case flushed =>
    intro fresh hdone
    exact Session.indistinguishable_flushed hflush (Session.flush_mem_calls hdone)
  case flushedByTimer =>
    intro millis fresh hcall
    exact Session.indistinguishable_flushed (hadvance millis) hcall
  case untried => exact fun ops hs hops => Session.uncounted_after hs hops
  case reset =>
    intro op d value hreset hzero
    exact (s.equivalent_reset hreset hzero).indistinguishable

end LoginAdmission
