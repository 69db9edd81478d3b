/-
  Independent evaluations commute.

  Two evaluations are apart when their attempts share neither login nor password nor address. An
  attempt is counted under the keys of its own values, and a key names one value of one dimension.
  So attempts that are apart move different counters, also where a text is the login of the one and
  the password of the other.

  Main statement: `exchange_law`, for every session that a run can arrive at, whatever faults were
  laid on its stores. An evaluation leaves a session that matches the one before in the counters
  that it does not count (`Session.matches_attempt`), and does the same on sessions that match in
  those that it counts. So sessions to which the same evaluations led in different orders match in
  all counters, and in how many are tracked (`Counters.SameCells`): nothing that is done later tells
  them apart, but what asks for records of the past.
-/
import LoginAdmission.Proofs.Counting.Likeness

namespace LoginAdmission

open Procedure

/-- The attempts share neither login nor password nor address. -/
structure Attempt.Apart (a b : Attempt) : Prop where
  login : a.login ≠ b.login
  password : a.password ≠ b.password
  address : a.address ≠ b.address

/-- The attempt is counted under this key, if it is counted. -/
def Attempt.Counts (a : Attempt) (key : String) : Prop := ∃ p ∈ a.dimensions, p.1.key p.2 = key

/-- The operations evaluate attempts that are apart, be it as a call, a request at the gate or a
command. -/
def Op.Apart (x y : Op) : Prop :=
  ∃ a b, x.attempt? = some a ∧ y.attempt? = some b ∧ a.Apart b

/-- No counter is there twice. -/
def Counters.Once (c : Counters) : Prop := (c.cells.map Prod.fst).Nodup

/-- The same counters are tracked, each once, and each reads the same. -/
structure Counters.SameCells (c c' : Counters) : Prop where
  once : c.Once
  once' : c'.Once
  same : c.SameOn (fun _ => True) c'

namespace Session

/-- The operation does on the second session what it does on the first, up to totals in the
answer. -/
structure DoesAlike (s s' : Session) (op : Op) : Prop where
  result : (s'.step op).result.withoutTotals = (s.step op).result.withoutTotals
  calls : (s'.step op).calls = (s.step op).calls
  events : (s'.step op).events = (s.step op).events
  decides : ∀ d, s'.Decides op d ↔ s.Decides op d

/-- All counters read the same on both sessions, and whatever is done next does the same on both,
unless it asks for records of what was done before. -/
structure SameFuture (s s' : Session) : Prop where
  counts : ∀ key, s'.site.count key = s.site.count key
  later : ∀ (ops : List Op) (op : Op), ¬ op.ConcernsRecords →
    let t := (s.after ops).step op
    let t' := (s'.after ops).step op
    t'.result = t.result ∧ t'.calls = t.calls ∧ t'.events = t.events

end Session

/-- What the order of independent evaluations is to a session. -/
structure ExchangeLaw (s : Session) : Prop where
  /-- An evaluation does the same after another that it is apart from as it does without it. -/
  same : ∀ x y, x.Apart y → s.DoesAlike (s.step x).state y
  /-- Which of two comes first makes no difference afterwards. -/
  exchanged : ∀ x y, x.Apart y → (s.after [x, y]).SameFuture (s.after [y, x])
  /-- Among any number of evaluations that are pairwise apart, each does the same wherever it
  stands. -/
  anywhere : ∀ before op after, (before ++ op :: after).Pairwise Op.Apart →
    s.DoesAlike (s.after before) op
  /-- And the order of them all makes no difference afterwards. -/
  order : ∀ ops ops', ops.Perm ops' → ops.Pairwise Op.Apart →
    (s.after ops).SameFuture (s.after ops')

/-! ## Attempts that are apart -/

theorem Attempt.Apart.symm {a b : Attempt} (h : a.Apart b) : b.Apart a :=
  ⟨h.login.symm, h.password.symm, h.address.symm⟩

theorem Op.Apart.symm {x y : Op} (h : x.Apart y) : y.Apart x := by
  obtain ⟨a, b, hx, hy, hab⟩ := h
  exact ⟨b, a, hy, hx, hab.symm⟩

/-- No key is counted by both. -/
theorem Attempt.Apart.not_counts {a b : Attempt} (h : a.Apart b) {key : String}
    (hkey : a.Counts key) : ¬ b.Counts key := by
  obtain ⟨⟨d, value⟩, hp, rfl⟩ := hkey
  rintro ⟨⟨d', value'⟩, hp', hsame⟩
  obtain ⟨rfl, rfl⟩ := Dimension.key_injective hsame
  simp only [dimensions, List.mem_cons, Prod.mk.injEq, List.not_mem_nil, or_false] at hp hp'
  rcases hp with ⟨rfl, rfl⟩ | ⟨rfl, rfl⟩ | ⟨rfl, rfl⟩
  · exact h.login (by simpa using hp')
  · exact h.password (by simpa using hp')
  · exact h.address (by simpa using hp')

/-! ## Counters -/

namespace Counters

variable {keys keys' : String → Prop} {c c' c'' : Counters}

theorem SameOn.symm (h : c.SameOn keys c') : c'.SameOn keys c :=
  fun key hkey => ⟨(h key hkey).1.symm, (h key hkey).2.symm⟩

theorem SameOn.trans (h : c.SameOn keys c') (h' : c'.SameOn keys c'') : c.SameOn keys c'' :=
  fun key hkey => ⟨(h' key hkey).1.trans (h key hkey).1, (h' key hkey).2.trans (h key hkey).2⟩

theorem once_set (h : c.Once) (key : String) (n : UInt64) : (c.set key n).Once := by
  obtain ⟨cells⟩ := c
  simp only [Once, set] at h ⊢
  induction cells with
  | nil => simp [put]
  | cons cell cells ih =>
    rw [List.map_cons, List.nodup_cons] at h
    simp only [put]
    split
    · next hk => exact List.nodup_cons.mpr ⟨hk ▸ h.1, h.2⟩
    · next hk =>
      refine List.nodup_cons.mpr ⟨fun hmem => ?_, ih h.2⟩
      rcases (tracks_set ⟨cells⟩ key cell.1 n).mp hmem with heq | htracks
      · exact hk heq.symm
      · exact h.1 htracks

theorem congruence_sameCells : Congruence (fun _ => True) SameCells where
  value h key _ := (h.same key trivial).1
  set h key n :=
    ⟨once_set h.once key n, once_set h.once' key n, (congruence_sameOn _).set h.same key n⟩
  empty := ⟨List.nodup_nil, List.nodup_nil, .refl _⟩

/-- As many counters are tracked in the one as in the other. -/
theorem SameCells.tracked (h : c.SameCells c') : c'.tracked = c.tracked := by
  have hperm : (c'.cells.map Prod.fst).Perm (c.cells.map Prod.fst) :=
    (List.perm_ext_iff_of_nodup h.once' h.once).mpr fun key => (h.same key trivial).2
  simpa [Counters.tracked] using hperm.length_eq

end Counters

/-! ## One evaluation -/

namespace Session

variable {s s' s'' : Session} {op x y : Op} {keys : String → Prop}

/-- An evaluation does nothing past its conversation, and asks for nothing that is recorded. -/
theorem frame_of_attempt {attempt : Attempt} (h : op.attempt? = some attempt) :
    op.touch = id ∧ op.reschedule = id ∧ ¬ op.ConcernsRecords ∧
      ∀ names, op ≠ .counters names := by
  cases op with
  | evaluate | gate | execute | line | json => exact ⟨rfl, rfl, id, nofun⟩
  | _ => cases h

/-- An evaluation leaves a session that matches in the counters that it does not count. -/
theorem matches_attempt (s : Session) {attempt : Attempt} (h : op.attempt? = some attempt)
    (hkeys : ∀ key, attempt.Counts key → ¬ keys key) :
    s.Matches (Counters.SameOn keys) (s.step op).state := by
  obtain ⟨htouch, hreschedule, -⟩ := frame_of_attempt h
  have hwrites : (s.talk op).Asks (Request.Writes fun key _ => attempt.Counts key) := by
    rw [s.talk_attempt h]
    exact asks_map _ (Engine.asks_evaluate (fun _ => trivial) fun p hp _ => ⟨p, hp, rfl⟩)
  exact s.matches_writes hwrites htouch hreschedule (.refl _) fun c' key n hkey hc' =>
    hc'.set (hkeys key hkey) n

/-- An evaluation does the same on sessions that match in the counters that it counts. -/
theorem Matches.doesAlike {attempt : Attempt} (h : s.Matches (Counters.SameOn attempt.Counts) s')
    (hop : op.attempt? = some attempt) : s.DoesAlike s' op := by
  have hR := Counters.congruence_sameOn attempt.Counts
  have hcounts : op.CountsOnly attempt.Counts :=
    Op.countsOnly_of_attempt hop fun p hp => ⟨p, hp, rfl⟩
  obtain ⟨-, -, hrecords, hcounters⟩ := frame_of_attempt hop
  have hresult := h.result hR hcounts (fun names heq => absurd heq (hcounters names)) hrecords
  obtain ⟨hcalls, hevents, -⟩ := h.step hR hcounts
  exact ⟨hresult, hcalls, hevents, decides_congr hevents hresult⟩

/-! ## Sessions with the same future -/

theorem SameSetting.symm (h : s.SameSetting s') : s'.SameSetting s :=
  ⟨h.lists.symm, h.limits.symm, h.timers.symm, h.faults.symm, h.refuses.symm⟩

theorem SameSetting.trans (h : s.SameSetting s') (h' : s'.SameSetting s'') : s.SameSetting s'' :=
  ⟨h'.lists.trans h.lists, h'.limits.trans h.limits, h'.timers.trans h.timers,
    h'.faults.trans h.faults, h'.refuses.trans h.refuses⟩

/-- Two sessions of one setting with the same counters, which have handled as many requests. -/
structure Interchangeable (s s' : Session) : Prop extends s.Matches Counters.SameCells s' where
  handled : s'.handled = s.handled

namespace Interchangeable

theorem trans (h : s.Interchangeable s') (h' : s'.Interchangeable s'') : s.Interchangeable s'' :=
  ⟨⟨h.toSameSetting.trans h'.toSameSetting,
    ⟨h.counters.once, h'.counters.once', h.counters.same.trans h'.counters.same⟩⟩,
    h'.handled.trans h.handled⟩

theorem step (h : s.Interchangeable s') (op : Op) :
    (s.step op).state.Interchangeable (s'.step op).state := by
  have hR := Counters.congruence_sameCells
  have hhandled := h.toMatches.handled hR op.countsOnly_all
  rw [h.handled] at hhandled
  exact ⟨(h.toMatches.step hR op.countsOnly_all).2.2, Nat.add_right_cancel hhandled⟩

theorem after (h : s.Interchangeable s') (ops : List Op) :
    (s.after ops).Interchangeable (s'.after ops) := by
  induction ops generalizing s s' with
  | nil => exact h
  | cons op ops ih => exact ih (h.step op)

theorem sameFuture (h : s.Interchangeable s') : s.SameFuture s' where
  counts key := (h.counters.same key trivial).1
  later ops op hrecords := by
    have hR := Counters.congruence_sameCells
    have hafter := h.after ops
    obtain ⟨hcalls, hevents, -⟩ := hafter.toMatches.step hR op.countsOnly_all
    exact ⟨hafter.toMatches.result_of_totals hR op.countsOnly_all (fun _ _ _ _ => trivial) hrecords
      hafter.counters.tracked hafter.handled, hcalls, hevents⟩

end Interchangeable

/-! ## Two evaluations, and many -/

/-- Two evaluations that are apart, in either order. A counter that the first does not count reads
after both what it reads after the second alone, whichever order they were done in; one that the
second does not count reads what it reads after the first alone. -/
theorem interchangeable_swap (h : s.Interchangeable s) (hxy : x.Apart y) :
    (s.after [x, y]).Interchangeable (s.after [y, x]) := by
  obtain ⟨a, b, hx, hy, hab⟩ := hxy
  have hcounts : ∀ {op : Op} {c d : Attempt}, op.attempt? = some c → d.Apart c →
      op.CountsOnly fun key => ¬ d.Counts key := fun hop hdc =>
    Op.countsOnly_of_attempt hop fun p hp hkey => hdc.not_counts hkey ⟨p, hp, rfl⟩
  have hR := fun c : Attempt => Counters.congruence_sameOn fun key => ¬ c.Counts key
  have hpast : ∀ (r : Session) {op : Op} {c : Attempt}, op.attempt? = some c →
      r.Matches (Counters.SameOn fun key => ¬ c.Counts key) (r.step op).state :=
    fun r _ _ hop => r.matches_attempt hop fun _ hkey => not_not_intro hkey
  have hyx := ((hpast s hx).step (hR a) (hcounts hy hab)).2.2
  have hyx' := hpast (s.step y).state hx
  have hxy := ((hpast s hy).step (hR b) (hcounts hx hab.symm)).2.2
  have hxy' := hpast (s.step x).state hy
  refine ⟨⟨hyx.toSameSetting.symm.trans hyx'.toSameSetting, ?_⟩, ?_⟩
  · refine ⟨(h.after [x, y]).counters.once, (h.after [y, x]).counters.once, fun key _ => ?_⟩
    by_cases hkey : a.Counts key
    · exact (hxy'.counters.symm.trans hxy.counters) key (hab.not_counts hkey)
    · exact (hyx.counters.symm.trans hyx'.counters) key hkey
  · have hfirst := (hpast s hx).handled (hR a) (hcounts hy hab)
    have hsecond := (hpast s hy).handled (hR b) (hcounts hx hab.symm)
    show ((s.step y).state.step x).state.handled = ((s.step x).state.step y).state.handled
    omega

/-- Evaluations that are apart from one leave the counters alone that it counts. -/
theorem matches_after (s : Session) {attempt : Attempt} {ops : List Op}
    (hops : ∀ op ∈ ops, ∃ a, op.attempt? = some a ∧ a.Apart attempt) :
    s.Matches (Counters.SameOn attempt.Counts) (s.after ops) := by
  induction ops generalizing s with
  | nil => exact ⟨⟨rfl, rfl, rfl, rfl, rfl⟩, .refl _⟩
  | cons op ops ih =>
    obtain ⟨⟨a, ha, hapart⟩, hops⟩ := List.forall_mem_cons.mp hops
    have hstep := s.matches_attempt ha fun key hkey => hapart.not_counts hkey
    have hrest := ih (s.step op).state hops
    exact ⟨hstep.toSameSetting.trans hrest.toSameSetting, hstep.counters.trans hrest.counters⟩

/-- So that one does the same after them. -/
theorem doesAlike_after (s : Session) {before : List Op} (h : ∀ x ∈ before, x.Apart op) :
    s.DoesAlike (s.after before) op := by
  cases before with
  | nil => exact ⟨rfl, rfl, rfl, fun _ => Iff.rfl⟩
  | cons x before =>
    obtain ⟨-, b, -, hb, -⟩ := h x List.mem_cons_self
    refine (s.matches_after fun y hy => ?_).doesAlike hb
    obtain ⟨a, b', ha, hb', hab⟩ := h y hy
    cases hb.symm.trans hb'
    exact ⟨a, ha, hab⟩

/-- Evaluations that are pairwise apart, in any order. -/
theorem interchangeable_perm (h : s.Interchangeable s) {ops ops' : List Op}
    (hperm : ops.Perm ops') (hapart : ops.Pairwise Op.Apart) :
    (s.after ops).Interchangeable (s.after ops') := by
  induction hperm generalizing s with
  | nil => exact h
  | cons op hperm ih => exact ih (h.step op) (List.pairwise_cons.mp hapart).2
  | swap x y ops =>
    have hyx : y.Apart x := (List.pairwise_cons.mp hapart).1 x List.mem_cons_self
    exact (interchangeable_swap h hyx).after ops
  | trans hfirst hsecond ih ih' =>
    have hapart' := hapart.perm hfirst fun hxy => hxy.symm
    exact (ih h hapart).trans (ih' h hapart')

/-- A session that a run arrives at has each counter once, as is seen when it is held against
itself. -/
theorem interchangeable_self (limits : Thresholds) (lists : ListStore) (sink : Sink)
    (audit : AuditTrail) (historyCapacity : Nat) (past : List Op) :
    let s := (Session.create limits lists sink audit historyCapacity).after past
    s.Interchangeable s := by
  have hempty := Counters.congruence_sameCells.empty
  exact Interchangeable.after ⟨⟨⟨rfl, rfl, rfl, rfl, rfl⟩, hempty⟩, rfl⟩ past

end Session

/-- After any run, evaluations of attempts that share no value may be done in any order: each does
the same, and nothing that follows tells the orders apart. -/
theorem exchange_law (limits : Thresholds) (lists : ListStore) (sink : Sink) (audit : AuditTrail)
    (historyCapacity : Nat) (past : List Op) :
    ExchangeLaw ((Session.create limits lists sink audit historyCapacity).after past) := by
  have hself := Session.interchangeable_self limits lists sink audit historyCapacity past
  generalize (Session.create limits lists sink audit historyCapacity).after past = s at hself
  constructor
  case same =>
    intro x y hxy
    have hsame : s.DoesAlike (s.after [x]) y :=
      s.doesAlike_after (List.forall_mem_singleton.mpr hxy)
    exact hsame
  case exchanged =>
    exact fun x y hxy => (Session.interchangeable_swap hself hxy).sameFuture
  case anywhere =>
    intro before op after hapart
    have hbefore := (List.pairwise_append.mp hapart).2.2
    exact s.doesAlike_after fun x hx => hbefore x hx op List.mem_cons_self
  case order =>
    exact fun ops ops' hperm hapart => (Session.interchangeable_perm hself hperm hapart).sameFuture

end LoginAdmission
