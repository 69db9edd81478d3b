/-
  Admission is monotone: a session that is no stricter lets in everyone whom a stricter one lets in.

  One session relaxes another when its deny list covers no other addresses, its allow list covers at
  least the same, no counter of it reads more and no limit is lower. The two may keep their lists in
  different stores, and an attempt may take different ways through them: one that is counted in the
  one session may be let in by the allow list of the other. So the decisions are compared by what
  they come to (`Session.LetsIn`), which is told by coverage, counts and limits alone.

  Main statement: `strictness_law`. That a run of tightening operations lets in nobody who was
  denied rests on one request (`Stores.Faultless.serve`), which a conversation and a run carry on.
-/
import LoginAdmission.Proofs.Events.Announced
import LoginAdmission.Proofs.Lists.Enumeration
import LoginAdmission.Proofs.Lists.Verdicts
import LoginAdmission.Proofs.Passage

namespace LoginAdmission

open Procedure

/-- No fault lies on the stores, and both lists answer. -/
def Stores.Faultless (s : Stores) : Prop := s.faults = [] ∧ s.lists.Answers

/-- The first stores deny no other addresses, let in at least the same by the allow list, and have
counted nothing more often. -/
structure Stores.Relaxes (s' s : Stores) : Prop where
  deny : ∀ address, s'.lists.Covers .deny address → s.lists.Covers .deny address
  allow : ∀ address, s.lists.Covers .allow address → s'.lists.Covers .allow address
  counts : ∀ key, s'.counters.value key ≤ s.counters.value key

/-- The request adds to the deny list or takes off the allow list, counts an attempt or only
looks. -/
def Request.Tightens : Request → Prop
  | .enumerate _ | .contains _ _ | .increment _ => True
  | .add list _ => list = .deny
  | .remove list _ => list = .allow
  | .set _ _ | .flush => False

namespace Session

/-- The session's stores have no fault. -/
def Faultless (s : Session) : Prop := s.site.stores.Faultless

/-- The first session is no stricter than the second. -/
structure Relaxes (s' s : Session) : Prop where
  stores : s'.site.stores.Relaxes s.site.stores
  limits : ∀ d, s.limits.limit d ≤ s'.limits.limit d

/-- The operation, or the one for which its command stands, edits the lists in one direction, writes
no counter down and does nothing past the stores. Attempts and single checks do so. -/
def Tightens (s : Session) (op : Op) : Prop :=
  match op.plain with
  | .add list _ _ => list = .deny
  | .remove list _ _ => list = .allow
  | .setCounter key n => s.site.count key ≤ n
  | .resetLogin _ | .resetAddress _ | .flush | .advance _ => False
  | .fail _ | .heal | .insertRow .. | .dropTable _ | .closeDatabase | .reattach => False
  | _ => True

/-- Every operation of a run tightens the session that it is done on. -/
def AllTighten (s : Session) : List Op → Prop
  | [] => True
  | op :: ops => s.Tightens op ∧ (s.step op).state.AllTighten ops

/-- An evaluation would deny the attempt. One that fails does not deny. -/
def Denies (s : Session) (attempt : Attempt) : Prop :=
  ∃ d : Decision, (s.step (.evaluate attempt)).result = .decision d ∧ d.allowed = false

end Session

/-- Whom a session lets in, held against sessions that are more or less strict. -/
structure StrictnessLaw (s : Session) : Prop where
  /-- Whoever is let in is let in by every session that is no stricter. -/
  admits : ∀ s' : Session, s'.Faultless → s'.Relaxes s → ∀ attempt,
    (s.step (.evaluate attempt)).result.allows = true →
    (s'.step (.evaluate attempt)).result.allows = true
  /-- Whatever the gate hands to the handler is handed to it there. -/
  gate : ∀ s' : Session, s'.Faultless → s'.Relaxes s → ∀ op,
    s.admits op = true → s'.admits op = true
  /-- Whoever is denied is denied by every session that is at least as strict. -/
  denies : ∀ s' : Session, s'.Faultless → s.Relaxes s' → ∀ attempt,
    s.Denies attempt → s'.Denies attempt
  /-- Lower limits let in nobody who was denied. -/
  limits : ∀ limits : Thresholds, (∀ d, limits.limit d ≤ s.limits.limit d) → ∀ attempt,
    s.Denies attempt → ({ s with limits } : Session).Denies attempt
  /-- Nor do more entries on the deny list, fewer on the allow list and larger counters, however
  many operations it takes and in whatever order. -/
  run : ∀ ops, s.AllTighten ops → ∀ attempt, s.Denies attempt → (s.after ops).Denies attempt

/-! ## Counts -/

theorem saturatingSucc_mono {m n : UInt64} (h : m ≤ n) : saturatingSucc m ≤ saturatingSucc n := by
  rw [UInt64.le_iff_toNat_le] at h ⊢
  rw [toNat_saturatingSucc, toNat_saturatingSucc]
  omega

theorem le_saturatingSucc (n : UInt64) : n ≤ saturatingSucc n := by
  have hn : n.toNat < wordBound := n.toNat_lt
  rw [UInt64.le_iff_toNat_le, toNat_saturatingSucc]
  omega

/-! ## Whom a session lets in -/

/-- An address that the deny list does not cover is let in by the allow list, or when all counts are
within their limits. -/
def Session.LetsIn (s : Session) (attempt : Attempt) (address : Address) : Prop :=
  ¬ s.site.stores.lists.Covers .deny address ∧
    (s.site.stores.lists.Covers .allow address ∨
      ∀ p ∈ attempt.dimensions, s.site.Within s.limits p.1 p.2)

theorem ListStore.Answers.listCovers {s : Site} (h : s.stores.lists.Answers) (list : AccessList)
    (address : Address) :
    ∃ b, s.listCovers list address = .ok b ∧ (b = true ↔ s.stores.lists.Covers list address) := by
  obtain ⟨entries, hshows⟩ := h list
  have hok : (s.stores.lists.enumerate list).1 = .ok entries := hshows
  refine ⟨Entry.covers address entries, ?_, hshows.covers_iff⟩
  rw [Site.listCovers, hok]
  rfl

namespace Session

variable {s s' : Session} {attempt : Attempt} {address : Address}

theorem Relaxes.letsIn (h : s'.Relaxes s) (hin : s.LetsIn attempt address) :
    s'.LetsIn attempt address := by
  obtain ⟨hdeny, hallow | hwithin⟩ := hin
  · exact ⟨mt (h.stores.deny address) hdeny, .inl (h.stores.allow address hallow)⟩
  · refine ⟨mt (h.stores.deny address) hdeny, .inr fun p hp => ?_⟩
    calc saturatingSucc (s'.site.count (p.1.key p.2))
        ≤ saturatingSucc (s.site.count (p.1.key p.2)) := saturatingSucc_mono (h.stores.counts _)
      _ ≤ s.limits.limit p.1 := hwithin p hp
      _ ≤ s'.limits.limit p.1 := h.limits p.1

/-- A valid attempt on a session without faults is decided, and let in just when it may be. -/
theorem evaluate_valid (h : s.Faultless) (hv : attempt.validate = .ok address) :
    ∃ d : Decision, (s.step (.evaluate attempt)).result = .decision d ∧
      (d.allowed = true ↔ s.LetsIn attempt address) := by
  have hsound : s.site.Sound := h.1
  obtain ⟨denied, hdenied, hdeny⟩ := h.2.listCovers .deny address
  obtain ⟨allowed, hallowed, hallow⟩ := h.2.listCovers .allow address
  simp only [evaluated_decision_iff, LetsIn, ← hdeny, ← hallow]
  match denied, allowed with
  | true, _ =>
    have hd := (Engine.decide_denied s.limits hsound attempt hdenied).evaluate s.limits hv
    exact ⟨_, hd.1, by simp⟩
  | false, true =>
    have hd := (Engine.decide_allowed s.limits hsound attempt hdenied hallowed).evaluate s.limits hv
    exact ⟨_, hd.1, by simp⟩
  | false, false =>
    have hunlisted : s.site.Unlisted attempt :=
      ⟨address, hv, fun list => by cases list <;> assumption⟩
    obtain ⟨d, -, hd, hwithin⟩ := Engine.evaluate_rated s.limits hsound hunlisted
    exact ⟨d, hd, by simp [hwithin]⟩

theorem evaluate_invalid (s : Session) {e : InvalidInput} (hv : attempt.validate = .error e) :
    (s.step (.evaluate attempt)).result = .failed (.invalid e) := by
  simp only [step, converse, Engine.evaluate, hv]
  rfl

theorem allows_iff (h : s.Faultless) :
    (s.step (.evaluate attempt)).result.allows = true ↔
      ∃ address, attempt.validate = .ok address ∧ s.LetsIn attempt address := by
  cases hv : attempt.validate with
  | error e =>
    rw [s.evaluate_invalid hv]
    simp [Answer.allows]
  | ok address =>
    obtain ⟨d, hd, hallowed⟩ := evaluate_valid h hv
    rw [hd]
    simpa [Answer.allows] using hallowed

theorem denies_iff (h : s.Faultless) :
    s.Denies attempt ↔ ∃ address, attempt.validate = .ok address ∧ ¬ s.LetsIn attempt address := by
  unfold Denies
  cases hv : attempt.validate with
  | error e =>
    rw [s.evaluate_invalid hv]
    simp
  | ok address =>
    obtain ⟨d, hd, hallowed⟩ := evaluate_valid h hv
    rw [hd]
    simp [← hallowed]

theorem Relaxes.allows (h : s'.Relaxes s) (hs : s.Faultless) (hs' : s'.Faultless)
    (hallows : (s.step (.evaluate attempt)).result.allows = true) :
    (s'.step (.evaluate attempt)).result.allows = true := by
  obtain ⟨address, hv, hin⟩ := (allows_iff hs).mp hallows
  exact (allows_iff hs').mpr ⟨address, hv, h.letsIn hin⟩

theorem Relaxes.denies (h : s'.Relaxes s) (hs : s.Faultless) (hs' : s'.Faultless)
    (hdenies : s'.Denies attempt) : s.Denies attempt := by
  obtain ⟨address, hv, hout⟩ := (denies_iff hs').mp hdenies
  exact (denies_iff hs).mpr ⟨address, hv, mt h.letsIn hout⟩

end Session

/-! ## What tightens the stores -/

namespace Stores

variable {s s' s'' : Stores}

theorem Relaxes.refl (s : Stores) : s.Relaxes s :=
  ⟨fun _ => id, fun _ => id, fun _ => UInt64.le_refl _⟩

theorem Relaxes.trans (h : s.Relaxes s') (h' : s'.Relaxes s'') : s.Relaxes s'' where
  deny address hdeny := h'.deny address (h.deny address hdeny)
  allow address hallow := h.allow address (h'.allow address hallow)
  counts key := UInt64.le_trans (h.counts key) (h'.counts key)

/-- A counter that is written up. -/
theorem relaxes_set {key : String} {n : UInt64} (h : s.counters.value key ≤ n) :
    s.Relaxes { s with counters := s.counters.set key n } := by
  refine ⟨fun _ => id, fun _ => id, fun other => ?_⟩
  rw [Counters.value_set]
  split
  · next heq => exact heq ▸ h
  · exact UInt64.le_refl _

/-- One request that tightens. -/
theorem Faultless.serve (h : s.Faultless) {request : Request} (hrequest : request.Tightens) :
    let s' := (s.serve request).2.1
    s'.Faultless ∧ s.Relaxes s' := by
  cases request with
  | enumerate list =>
    simp only [Stores.serve, withLists, ListStore.enumerate_state]
    exact ⟨h, .refl s⟩
  | contains list subnet =>
    simp only [Stores.serve, withLists, ListStore.contains_state]
    exact ⟨h, .refl s⟩
  | increment key => exact ⟨h, relaxes_set (le_saturatingSucc _)⟩
  | add list subnet =>
    obtain rfl : list = .deny := hrequest
    have hgrows := ListStore.grows_add h.2 .deny subnet
    have hother : AccessList.allow ≠ .deny := by decide
    exact ⟨⟨h.1, hgrows.answers.2⟩, fun _ => hgrows.covers, fun _ => (hgrows.covers_iff hother).mp,
      fun _ => UInt64.le_refl _⟩
  | remove list subnet =>
    obtain rfl : list = .allow := hrequest
    have hgrows := ListStore.grows_remove h.2 .allow subnet
    have hother : AccessList.deny ≠ .allow := by decide
    exact ⟨⟨h.1, hgrows.answers.1⟩, fun _ => (hgrows.covers_iff hother).mp, fun _ => hgrows.covers,
      fun _ => UInt64.le_refl _⟩
  | set | flush => exact hrequest.elim

end Stores

/-- A conversation that asks for nothing else. -/
theorem Procedure.run_tightens {α : Type} {p : Procedure α} (hp : p.Asks Request.Tightens)
    {s : Site} (h : s.stores.Faultless) :
    let s' := (p.run Site.host s).state
    s'.stores.Faultless ∧ s.stores.Relaxes s'.stores := by
  induction p generalizing s with
  | done a => exact ⟨h, .refl s.stores⟩
  | ask request next ih =>
    obtain ⟨hserve, hrelaxes⟩ := h.serve hp.1
    have hstate : (Site.host.answer request s).2.1.stores = (s.stores.serve request).2.1 := by
      rw [Site.host_answer_of_sound h.1]
    rw [← hstate] at hserve hrelaxes
    obtain ⟨hend, hrest⟩ := ih (Site.host.answer request s).1 (hp.2 _) hserve
    exact ⟨hend, hrelaxes.trans hrest⟩
  | note line next ih => exact ih hp h
  | announce event next ih => exact ih hp h

namespace Session

variable {s : Session} {op : Op} {attempt : Attempt}

/-- An operation that tightens asks for nothing else, unless it writes a counter itself. -/
theorem asks_tightens (hop : s.Tightens op) (hset : ∀ key n, op.plain ≠ .setCounter key n) :
    (s.talk op).Asks Request.Tightens ∧ ∀ site, (op.touch site).stores = site.stores := by
  unfold Tightens at hop
  constructor
  · refine (s.asks_behind op).mono fun request hasks => ?_
    by_cases hgate : ∃ attempt handler, op = .gate attempt handler
    · obtain ⟨attempt, handler, rfl⟩ := hgate
      simp only [Op.behind] at hasks
      split at hasks <;> cases hasks <;> trivial
    · rw [Op.behind_of_not_gate fun attempt handler heq => hgate ⟨attempt, handler, heq⟩] at hasks
      generalize op.plain = plain at hop hasks
      cases hasks with
      | add | remove => exact hop
      | resetLogin | resetAddress | flush | due => exact hop.elim
      | _ => trivial
  · rw [← (s.talk_plain op).2.1]
    generalize op.plain = plain at hop hset
    intro site
    cases plain with
    | setCounter key n => exact absurd rfl (hset key n)
    | fail | heal | insertRow | dropTable | closeDatabase | reattach => exact hop.elim
    | clearEvents =>
      simp only [Op.touch]
      split <;> rfl
    | _ => rfl

/-- An operation that tightens leaves a session without faults, which the one before relaxes. -/
theorem step_tightens (h : s.Faultless) (hop : s.Tightens op) :
    (s.step op).state.Faultless ∧ s.Relaxes (s.step op).state := by
  suffices hstores : (s.step op).state.site.stores.Faultless ∧
      s.site.stores.Relaxes (s.step op).state.site.stores from
    ⟨hstores.1, hstores.2, fun d => by rw [(s.step_frame op).1]; exact UInt64.le_refl _⟩
  by_cases hset : ∃ key n, op.plain = .setCounter key n
  · obtain ⟨key, n, hplain⟩ := hset
    rw [← (s.step_plain op).2.2.site, hplain]
    unfold Tightens at hop
    rw [hplain] at hop
    exact ⟨h, Stores.relaxes_set hop⟩
  · obtain ⟨hasks, htouch⟩ := s.asks_tightens hop fun key n heq => hset ⟨key, n, heq⟩
    rw [(s.step_site op).2.2, htouch]
    exact run_tightens hasks h

/-- So a run of such operations denies whom the session denied that it began on. -/
theorem denies_after (h : s.Faultless) {ops : List Op} (hops : s.AllTighten ops)
    (hdenies : s.Denies attempt) : (s.after ops).Denies attempt := by
  induction ops generalizing s with
  | nil => exact hdenies
  | cons op ops ih =>
    obtain ⟨hop, hops⟩ := hops
    obtain ⟨hfaultless, hrelaxes⟩ := step_tightens h hop
    exact ih hfaultless hops (hrelaxes.denies hfaultless h hdenies)

/-- A run of regular operations on lists that begin empty leaves a session without faults. -/
theorem faultless_after (limits : Thresholds) {lists : ListStore} (sink : Sink) (audit : AuditTrail)
    (historyCapacity : Nat) {ops : List Op} (hlists : lists.Fresh) (hops : ∀ op ∈ ops, op.Regular) :
    ((Session.create limits lists sink audit historyCapacity).after ops).Faultless := by
  have hstart : (Session.create limits lists sink audit historyCapacity).site.Follows [] :=
    ⟨rfl, hlists.holds⟩
  have hfollows := follows_timeline hstart hops
  refine ⟨hfollows.sound, fun list => ?_⟩
  obtain ⟨entries, hentries, -⟩ := hfollows.lists.enumerate list
  exact ⟨entries, hentries⟩

end Session

/-- A session without faults lets in no more than any session that relaxes it, and its denials
outlast whatever makes it stricter. -/
theorem strictness_law (s : Session) (h : s.Faultless) : StrictnessLaw s := by
  constructor
  case admits => exact fun s' hs' hrelaxes attempt => hrelaxes.allows h hs'
  case gate =>
    intro s' hs' hrelaxes op hop
    cases op with
    | gate attempt handler =>
      simp only [Session.admits, Bool.and_eq_true] at hop ⊢
      exact ⟨hop.1, hrelaxes.allows h hs' hop.2⟩
    | _ => cases hop
  case denies => exact fun s' hs' hrelaxes attempt => hrelaxes.denies hs' h
  case limits =>
    intro limits hlimits attempt hdenies
    have hstricter : s.Relaxes { s with limits } := ⟨.refl _, hlimits⟩
    exact hstricter.denies h h hdenies
  case run => exact fun ops hops attempt => Session.denies_after h hops

/-- A database with a pair on either list, after an attempt was counted. -/
theorem strictness_law_database :
    let ops : List Op := [.add .deny "10.0.0.0" 8, .add .allow "10.1.2.3" 16,
      .evaluate ⟨"ann", "secret", "192.168.0.1"⟩]
    let s := (Session.create ⟨0, 5, 5⟩ (.database .empty) .discard .absent 1).after ops
    s.Faultless ∧ StrictnessLaw s := by
  intro ops s
  have hops : ∀ op ∈ ops, op.Regular := by simp [ops, Op.Regular]
  have hs : s.Faultless := Session.faultless_after _ .discard .absent 1 (Or.inr rfl) hops
  exact ⟨hs, strictness_law s hs⟩

end LoginAdmission
