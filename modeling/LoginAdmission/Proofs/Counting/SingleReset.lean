/-
  A reset touches one counter.

  The counters are kept under texts, and the values in them are whatever a client sends. A key
  names one value of one dimension all the same (`Dimension.key_injective`), so a reset of one value
  leaves the counters of all others alone, also of those whose text looks like a key.

  Main statement: `reset_law`. Before and after a reset the sessions match in all counters but one
  (`Counters.SameOn`), and an operation that does not use the value does not look at that one
  (`Op.countsOnly_of_not_uses`), so no run of such operations shows that there was a reset.
-/
import LoginAdmission.Proofs.Counting.Likeness

namespace LoginAdmission

open Procedure

/-- The operation counts a value: in an attempt that it evaluates, or in a single check. -/
def Op.Uses (d : Dimension) (value : String) (op : Op) : Prop :=
  (∃ attempt, op.attempt? = some attempt ∧ (d, value) ∈ attempt.dimensions) ∨ op = .check d value

/-- The counter of a value is set back to zero, and all else is as it was. -/
structure Session.SetBack (s s' : Session) (d : Dimension) (value : String) : Prop where
  zero : s'.site.count (d.key value) = 0
  others : ∀ d' value', (d', value') ≠ (d, value) →
    s'.site.count (d'.key value') = s.site.count (d'.key value')
  lists : s'.site.stores.lists = s.site.stores.lists
  limits : s'.limits = s.limits
  timers : s'.schedule = s.schedule

/-- What a reset does to a session. -/
structure ResetLaw (s : Session) : Prop where
  /-- The reset of a login that is not empty succeeds, unless a fault lies on its counter. -/
  login : ∀ login, login ≠ "" →
    (∀ fault ∈ s.site.stores.faults, ¬ fault.hits (.set (Dimension.login.key login) 0)) →
    (s.step (.resetLogin login)).result = .done
  /-- So does the reset of an address. -/
  address : ∀ address a, Address.parse address = .ok a →
    (∀ fault ∈ s.site.stores.faults, ¬ fault.hits (.set (Dimension.address.key address) 0)) →
    (s.step (.resetAddress address)).result = .done
  /-- A reset that succeeds, also one that a command carries out, sets its counter back to zero and
  changes nothing else. -/
  done : ∀ op d value, op.reset? = some (d, value) → (s.step op.plain).result = .done →
    s.SetBack (s.step op).state d value
  /-- Whatever is done afterwards without using the value, the decisions are the same as if there
  had been no reset. -/
  decisions : ∀ op d value, op.reset? = some (d, value) →
    ∀ ops next, (∀ op' ∈ next :: ops, ¬ op'.Uses d value) → ∀ decision,
    ((s.step op).state.after ops).Decides next decision ↔ (s.after ops).Decides next decision
  /-- The stores see the same calls and the same events are announced. The answers are the same too,
  except where an operation asks for records or reads the counter itself. -/
  unseen : ∀ op d value, op.reset? = some (d, value) →
    ∀ ops next, (∀ op' ∈ next :: ops, ¬ op'.Uses d value) →
    let t := (s.after ops).step next
    let t' := ((s.step op).state.after ops).step next
    t'.calls = t.calls ∧ t'.events = t.events ∧
      (¬ next.ConcernsRecords → (∀ names, next = .counters names → d.key value ∉ names) →
        t'.result.withoutTotals = t.result.withoutTotals)

/-! ## Operations that do not use a value -/

/-- An operation that does not use a value does not count it. -/
theorem Op.countsOnly_of_not_uses {op : Op} {d : Dimension} {value : String}
    (h : ¬ op.Uses d value) : op.CountsOnly (· ≠ d.key value) := by
  intro s
  cases hattempt : op.attempt? with
  | some attempt =>
    refine Op.countsOnly_of_attempt hattempt (fun p hp hkey => h (.inl ?_)) s
    obtain ⟨hd, hvalue⟩ := Dimension.key_injective hkey
    exact ⟨attempt, hattempt, by rwa [← hd, ← hvalue]⟩
  | none =>
    by_cases hcheck : ∃ d' value', op = .check d' value'
    · obtain ⟨d', value', rfl⟩ := hcheck
      refine asks_map _ (Engine.asks_check fun hkey => h (.inr ?_))
      obtain ⟨rfl, rfl⟩ := Dimension.key_injective hkey
      rfl
    · have hquiet := s.asks_talk hattempt fun d' value' heq => hcheck ⟨d', value', heq⟩
      refine hquiet.mono fun request hrequest => ?_
      cases request with
      | increment key => exact hrequest.elim
      | _ => trivial

/-! ## The reset -/

namespace Session

variable {s : Session} {op : Op} {d : Dimension} {value : String}

/-- A reset with valid input succeeds where no fault lies on its counter. -/
theorem done_of_reset (h : op.request? = some (.ok (.set (d.key value) 0)))
    (hfaults : ∀ fault ∈ s.site.stores.faults, ¬ fault.hits (.set (d.key value) 0)) :
    (s.step op).result = .done := by
  rw [(s.step_asked h).result]
  rcases s.site.host_answer_cases (.set (d.key value) 0) with ⟨fault, hmem, hhits, -⟩ | hanswer
  · exact absurd hhits (hfaults fault hmem)
  · rw [hanswer]
    rfl

/-- A reset that succeeds has written its counter. -/
theorem count_of_done (h : op.request? = some (.ok (.set (d.key value) 0)))
    (hdone : (s.step op).result = .done) : (s.step op).state.site.count (d.key value) = 0 := by
  obtain ⟨-, hstores, hresult⟩ := s.step_asked h
  rw [hresult] at hdone
  rw [Site.count, hstores]
  rcases s.site.host_answer_cases (.set (d.key value) 0) with ⟨fault, -, -, hanswer⟩ | hanswer
  · rw [hanswer] at hdone
    cases hdone
  · rw [hanswer]
    exact (Counters.value_set ..).trans (if_pos rfl)

/-- A reset leaves a session that matches the one before in all counters but its own. -/
theorem matches_others (s : Session) (h : op.reset? = some (d, value)) :
    s.Matches (Counters.SameOn (· ≠ d.key value)) (s.step op).state :=
  s.matches_reset h (.refl _) fun _ hc' => hc'.set (not_not_intro rfl) 0

theorem setBack_of_done (h : op.reset? = some (d, value))
    (hdone : (s.step op.plain).result = .done) : s.SetBack (s.step op).state d value := by
  have hmatches := s.matches_others h
  constructor
  case zero =>
    rcases Op.errand_of_reset h with ⟨e, herrand⟩ | herrand
    · rw [s.step_refused herrand] at hdone
      cases hdone
    · rw [← (s.step_plain op).2.2.site]
      exact count_of_done herrand hdone
  case others =>
    intro d' value' hne
    refine (hmatches.counters _ fun hkey => hne ?_).1
    obtain ⟨rfl, rfl⟩ := Dimension.key_injective hkey
    rfl
  case lists => exact hmatches.lists
  case limits => exact hmatches.limits
  case timers =>
    rw [(s.step_frame op).2.1, (s.asks_talk_reset h).2.2]
    rfl

end Session

/-! ## Afterwards -/

namespace Session

/-- Neither the answer to a question for records nor one that lists counters reports a decision. -/
theorem not_decides (s : Session) {op : Op} (h : op.ConcernsRecords ∨ ∃ names, op = .counters names)
    (decision : Decision) : ¬ s.Decides op decision := by
  rintro ⟨-, hreports⟩
  cases op <;> simp only [Op.ConcernsRecords, reduceCtorEq, exists_const, or_self] at h
  case events | clearEvents =>
    simp only [step] at hreports
    cases hsink : s.site.sink <;> rw [hsink] at hreports <;> exact hreports
  case history | audit | counters => exact hreports

variable {s s' : Session} {d : Dimension} {value : String} {op : Op}

/-- Sessions that match in all counters but one look the same to an operation that does not use the
value of that one. -/
theorem Matches.unseen (h : s.Matches (Counters.SameOn (· ≠ d.key value)) s')
    (hop : ¬ op.Uses d value) :
    let t := s.step op
    let t' := s'.step op
    t'.calls = t.calls ∧ t'.events = t.events ∧
      (¬ op.ConcernsRecords → (∀ names, op = .counters names → d.key value ∉ names) →
        t'.result.withoutTotals = t.result.withoutTotals) := by
  have hR := Counters.congruence_sameOn (· ≠ d.key value)
  have hcounts := Op.countsOnly_of_not_uses hop
  obtain ⟨hcalls, hevents, -⟩ := h.step hR hcounts
  refine ⟨hcalls, hevents, fun hrecords hreads => h.result hR hcounts ?_ hrecords⟩
  rintro names rfl key hkey rfl
  exact hreads names rfl hkey

/-- Its decision is the same. -/
theorem Matches.decides_iff (h : s.Matches (Counters.SameOn (· ≠ d.key value)) s')
    (hop : ¬ op.Uses d value) (decision : Decision) :
    s'.Decides op decision ↔ s.Decides op decision := by
  by_cases hnever : op.ConcernsRecords ∨ ∃ names, op = .counters names
  · exact iff_of_false (s'.not_decides hnever decision) (s.not_decides hnever decision)
  · obtain ⟨hrecords, hcounters⟩ := not_or.mp hnever
    obtain ⟨-, hevents, hresult⟩ := h.unseen hop
    have hresult := hresult hrecords fun names heq => absurd ⟨names, heq⟩ hcounters
    exact decides_congr hevents hresult decision

/-- A run without the value goes on matching what it would be without the reset. -/
theorem matches_after_reset (s : Session) (h : op.reset? = some (d, value)) {ops : List Op}
    (hops : ∀ op' ∈ ops, ¬ op'.Uses d value) :
    (s.after ops).Matches (Counters.SameOn (· ≠ d.key value)) ((s.step op).state.after ops) :=
  (s.matches_others h).after (Counters.congruence_sameOn _) fun op' hop' =>
    Op.countsOnly_of_not_uses (hops op' hop')

end Session

/-- A reset sets one counter back to zero, and only operations that use its value can tell. -/
theorem reset_law (s : Session) : ResetLaw s := by
  constructor
  case login =>
    intro login hlogin hfaults
    refine Session.done_of_reset ?_ hfaults
    have hinput : login.isEmpty = false := by simpa using hlogin
    rw [Op.request?, hinput]
    rfl
  case address =>
    intro address a haddress hfaults
    refine Session.done_of_reset ?_ hfaults
    rw [Op.request?, haddress]
    rfl
  case done => exact fun op d value h hdone => Session.setBack_of_done h hdone
  case decisions =>
    intro op d value h ops next hops
    obtain ⟨hnext, hops⟩ := List.forall_mem_cons.mp hops
    exact (s.matches_after_reset h hops).decides_iff hnext
  case unseen =>
    intro op d value h ops next hops
    obtain ⟨hnext, hops⟩ := List.forall_mem_cons.mp hops
    exact (s.matches_after_reset h hops).unseen hnext

end LoginAdmission
