/-
  What the lists decide: verdicts follow the edits, and the deny list comes first.

  `CoveredBy` says that an address is in the block of a pair that stands on a list by the calls. It
  is told by the history of the calls and by numbers, and knows neither of entries nor of masks as
  words. The calls that edit a list are those of operations that add or remove a pair and go well.

  Main statement: `verdict_law`, for runs of regular operations on lists of either kind that begin
  empty. The lists hold what stands by the calls (`Site.Follows`), so an enumeration covers an
  address just when the calls do.
-/
import LoginAdmission.Proofs.Address.Blocks
import LoginAdmission.Proofs.Errands
import LoginAdmission.Proofs.Lists.Standing

namespace LoginAdmission

open Procedure

/-- The address is in the block of a pair that stands on the list by the calls. -/
def CoveredBy (calls : List Call) (list : AccessList) (address : Address) : Prop :=
  ∃ subnet : Subnet, Listed calls list subnet ∧
    address.number / 2 ^ (32 - subnet.mask) = subnet.ip.number / 2 ^ (32 - subnet.mask)

/-- The decisions that are left when neither list covers an address. -/
def Decision.ofRates : List Decision :=
  [⟨false, .loginRate⟩, ⟨false, .passwordRate⟩, ⟨false, .addressRate⟩, ⟨true, .passed⟩]

/-- A request for the entries of a list. It reads and writes no counter. -/
def Request.Enumerates (request : Request) : Prop := ∃ list, request = .enumerate list

/-- What the lists decide at a session whose stores were asked these calls. -/
structure VerdictLaw (past : List Call) (s : Session) : Prop where
  /-- Wherever an addition goes well, it makes just the call that adds the pair of its arguments. -/
  added : ∀ (r : Session) op list ip mask id, op.plain = .add list ip mask →
    (r.step op.plain).result = .added id →
    ∃ subnet, Subnet.make ip mask = .ok subnet ∧ (r.step op).calls = [⟨.add list subnet, .ok id⟩]
  /-- And a removal that goes well makes just the call that removes it. -/
  removed : ∀ (r : Session) op list ip mask, op.plain = .remove list ip mask →
    (r.step op.plain).result = .done →
    ∃ subnet, Subnet.make ip mask = .ok subnet ∧ (r.step op).calls = [⟨.remove list subnet, .ok ()⟩]
  /-- Nothing else edits a list by a call. -/
  edited : ∀ (r : Session) op call list subnet, call ∈ (r.step op).calls →
    call.edit? = some (list, subnet) → ∃ ip mask, Subnet.make ip mask = .ok subnet ∧
      ((op.plain = .add list ip mask ∧ ∃ id, (r.step op.plain).result = .added id) ∨
        (op.plain = .remove list ip mask ∧ (r.step op.plain).result = .done))
  /-- A valid attempt is denied by the deny list just when that covers its address. -/
  denied : ∀ attempt address, attempt.validate = .ok address →
    ((s.step (.evaluate attempt)).result = .decision ⟨false, .denylisted⟩ ↔
      CoveredBy past .deny address)
  /-- Any other is let in by the allow list just when that covers its address. -/
  allowed : ∀ attempt address, attempt.validate = .ok address → ¬ CoveredBy past .deny address →
    ((s.step (.evaluate attempt)).result = .decision ⟨true, .allowlisted⟩ ↔
      CoveredBy past .allow address)
  /-- An attempt that neither list covers is decided by the rates. -/
  rated : ∀ attempt address, attempt.validate = .ok address → ¬ CoveredBy past .deny address →
    ¬ CoveredBy past .allow address →
    ∃ d ∈ Decision.ofRates, (s.step (.evaluate attempt)).result = .decision d
  /-- An attempt that a list decides reads no counter, and changes nothing in the stores. -/
  uncounted : ∀ attempt address, attempt.validate = .ok address →
    CoveredBy past .deny address ∨ CoveredBy past .allow address →
    (∀ call ∈ (s.step (.evaluate attempt)).calls, call.request.Enumerates) ∧
      (s.step (.evaluate attempt)).state.site.stores = s.site.stores
  /-- A list that is asked for an address says whether it covers it. -/
  inList : ∀ list text address, Address.parse text = .ok address →
    ∃ b, (s.step (.inList list text)).result = .flag b ∧ (b = true ↔ CoveredBy past list address)
  /-- It says so still after operations that edit nothing on it, whatever they do to the other. -/
  otherList : ∀ list more, (∀ op ∈ more, op.Regular) →
    (∀ call ∈ s.timeline more, ∀ subnet, call.edit? ≠ some (list, subnet)) →
    ∀ text, ((s.after more).step (.inList list text)).result = (s.step (.inList list text)).result

/-! ## Edits -/

namespace Session

variable {s : Session} {op : Op} {list : AccessList} {ip : String} {mask : UInt8}

theorem errand_of_add (hop : op.plain = .add list ip mask) :
    op.errand? = some ((Subnet.make ip mask).map (.add list)) := by
  rw [Op.errand?, hop, Op.request?]

theorem errand_of_remove (hop : op.plain = .remove list ip mask) :
    op.errand? = some ((Subnet.make ip mask).map (.remove list)) := by
  rw [Op.errand?, hop, Op.request?]

theorem calls_of_added {id : UInt64} (hop : op.plain = .add list ip mask)
    (hadded : (s.step op.plain).result = .added id) :
    ∃ subnet, Subnet.make ip mask = .ok subnet ∧
      (s.step op).calls = [⟨.add list subnet, .ok id⟩] := by
  obtain ⟨request, reply, hrequest, hcalls, hreply⟩ :=
    s.exists_reply (errand_of_add hop) (by simp [hadded])
  obtain ⟨subnet, hmake, rfl⟩ := exists_of_map hrequest
  cases hadded.symm.trans hreply
  exact ⟨subnet, hmake, hcalls⟩

theorem calls_of_removed (hop : op.plain = .remove list ip mask)
    (hdone : (s.step op.plain).result = .done) :
    ∃ subnet, Subnet.make ip mask = .ok subnet ∧
      (s.step op).calls = [⟨.remove list subnet, .ok ()⟩] := by
  obtain ⟨request, reply, hrequest, hcalls, -⟩ :=
    s.exists_reply (errand_of_remove hop) (by simp [hdone])
  obtain ⟨subnet, hmake, rfl⟩ := exists_of_map hrequest
  exact ⟨subnet, hmake, hcalls⟩

/-- A call that edits a list is that of an addition or a removal that goes well. -/
theorem exists_of_edit {call : Call} {subnet : Subnet} (h : call ∈ (s.step op).calls)
    (hedit : call.edit? = some (list, subnet)) :
    ∃ ip mask, Subnet.make ip mask = .ok subnet ∧
      ((op.plain = .add list ip mask ∧ ∃ id, (s.step op.plain).result = .added id) ∨
        (op.plain = .remove list ip mask ∧ (s.step op.plain).result = .done)) := by
  have hask := s.mayAsk_of_mem_calls h
  generalize hbehind : op.behind = behind at hask
  obtain ⟨request, answer⟩ := call
  unfold Call.edit? at hedit
  split at hedit
  · next l pair id hcall =>
    cases hcall
    cases hedit
    cases hask with
    | @add _ ip mask =>
      have hplain := Op.plain_of_behind hbehind nofun nofun
      obtain ⟨hrequest, hreport⟩ := s.errand_of_mem_calls (errand_of_add hplain) h
      obtain ⟨made, hmake, ⟨⟩⟩ := exists_of_map hrequest
      exact ⟨ip, mask, hmake, .inl ⟨hplain, id, hreport⟩⟩
  · next l pair u hcall =>
    cases hcall
    cases hedit
    cases hask with
    | @remove _ ip mask =>
      have hplain := Op.plain_of_behind hbehind nofun nofun
      obtain ⟨hrequest, hreport⟩ := s.errand_of_mem_calls (errand_of_remove hplain) h
      obtain ⟨made, hmake, ⟨⟩⟩ := exists_of_map hrequest
      exact ⟨ip, mask, hmake, .inr ⟨hplain, hreport⟩⟩
  · cases hedit

end Session

/-! ## Coverage -/

/-- An enumeration covers an address just when the calls do. -/
theorem Site.Follows.listCovers {s : Site} {calls : List Call} (h : s.Follows calls)
    (list : AccessList) (address : Address) :
    ∃ b, s.listCovers list address = .ok b ∧ (b = true ↔ CoveredBy calls list address) := by
  obtain ⟨entries, hentries, hlisted⟩ := h.lists.enumerate list
  refine ⟨Entry.covers address entries, by rw [Site.listCovers, hentries]; rfl, ?_⟩
  rw [Entry.covers_iff]
  constructor
  · rintro ⟨e, he, hcontains⟩
    exact ⟨e.subnet, (hlisted e.subnet).mp ⟨e, he, rfl⟩, (Subnet.contains_iff ..).mp hcontains⟩
  · rintro ⟨subnet, hs, hblock⟩
    obtain ⟨e, he, rfl⟩ := (hlisted subnet).mpr hs
    exact ⟨e, he, (Subnet.contains_iff ..).mpr hblock⟩

theorem Site.Follows.covered_iff {s : Site} {calls : List Call} (h : s.Follows calls)
    (list : AccessList) (address : Address) :
    s.listCovers list address = .ok true ↔ CoveredBy calls list address := by
  obtain ⟨b, hb, hcovered⟩ := h.listCovers list address
  rw [hb, ← hcovered]
  exact ⟨Except.ok.inj, congrArg _⟩

theorem Site.Follows.uncovered {s : Site} {calls : List Call} (h : s.Follows calls)
    {list : AccessList} {address : Address} (hnot : ¬ CoveredBy calls list address) :
    s.listCovers list address = .ok false := by
  obtain ⟨b, hb, hcovered⟩ := h.listCovers list address
  rw [hb, Bool.eq_false_iff.mpr fun htrue => hnot (hcovered.mp htrue)]

/-! ## An attempt that a list decides -/

namespace Engine

variable (limits : Thresholds) {s : Site}

/-- A decision that the lists made: the calls are enumerations, and the stores are as before. -/
def ByLists (r : Transcript Site (Except Failure Decision)) (s : Site) (d : Decision) : Prop :=
  r.result = .ok d ∧ (∀ call ∈ r.calls, call.request.Enumerates) ∧ r.state.stores = s.stores

theorem enumerates_covers (list : AccessList) (address : Address) :
    ∀ call ∈ ((covers list address).run Site.host s).calls, call.request.Enumerates :=
  request_of_mem_calls Site.host (asks_covers ⟨list, rfl⟩ address) s

theorem decide_denied (hs : s.Sound) (attempt : Attempt) {address : Address}
    (hdeny : s.listCovers .deny address = .ok true) :
    ByLists ((decide limits attempt address).run Site.host s) s ⟨false, .denylisted⟩ := by
  obtain ⟨hresult, hstate, -, -⟩ := run_covers hs .deny address
  have hcalls := enumerates_covers (s := s) .deny address
  rw [hdeny] at hresult
  unfold ByLists
  simp only [decide, run_bind, hresult, hstate, mapError_ok, run, List.append_nil]
  exact ⟨trivial, hcalls, trivial⟩

theorem decide_allowed (hs : s.Sound) (attempt : Attempt) {address : Address}
    (hdeny : s.listCovers .deny address = .ok false)
    (hallow : s.listCovers .allow address = .ok true) :
    ByLists ((decide limits attempt address).run Site.host s) s ⟨true, .allowlisted⟩ := by
  obtain ⟨hresult, hstate, -, -⟩ := run_covers hs .deny address
  obtain ⟨hresult', hstate', -, -⟩ := run_covers hs .allow address
  have hcalls := enumerates_covers (s := s) .deny address
  have hcalls' := enumerates_covers (s := s) .allow address
  rw [hdeny] at hresult
  rw [hallow] at hresult'
  unfold ByLists
  simp only [decide, run_bind, hresult, hstate, hresult', hstate', mapError_ok, run,
    List.append_nil]
  exact ⟨trivial, fun call hcall => (List.mem_append.mp hcall).elim (hcalls call) (hcalls' call),
    trivial⟩

/-- An evaluation of a valid attempt asks and answers what its decision does; the report of it
reaches the sink only. -/
theorem run_evaluate (s : Site) {attempt : Attempt} {address : Address}
    (hv : attempt.validate = .ok address) :
    let r := (evaluate limits attempt).run Site.host s
    let t := (decide limits attempt address).run Site.host s
    r.result = t.result ∧ r.calls = t.calls ∧ r.state.stores = t.state.stores := by
  simp only [evaluate, hv, run_bind]
  cases ((decide limits attempt address).run Site.host s).result <;>
    exact ⟨rfl, List.append_nil _, rfl⟩

theorem ByLists.evaluate {attempt : Attempt} {address : Address} {d : Decision}
    (hv : attempt.validate = .ok address)
    (h : ByLists ((decide limits attempt address).run Site.host s) s d) :
    ByLists ((Engine.evaluate limits attempt).run Site.host s) s d := by
  obtain ⟨hresult, hcalls, hstores⟩ := run_evaluate limits s hv
  unfold ByLists
  rw [hresult, hcalls, hstores]
  exact h

/-- An attempt that neither list covers is decided by the rates, and let in when all of them are
within their limits. -/
theorem evaluate_rated (hs : s.Sound) {attempt : Attempt} (h : s.Unlisted attempt) :
    ∃ d ∈ Decision.ofRates, ((evaluate limits attempt).run Site.host s).result = .ok d ∧
      (d.allowed = true ↔ ∀ p ∈ attempt.dimensions, s.Within limits p.1 p.2) := by
  obtain ⟨hlogin, hpassword, haddress, hpassed⟩ := rules_attempt limits hs attempt
  have hall : (∀ p ∈ attempt.dimensions, s.Within limits p.1 p.2) ↔
      s.Within limits .login attempt.login ∧ s.Within limits .password attempt.password ∧
        s.Within limits .address attempt.address := by
    simp [Attempt.dimensions]
  rw [hall]
  by_cases hl : s.Within limits .login attempt.login
  · by_cases hp : s.Within limits .password attempt.password
    · by_cases ha : s.Within limits .address attempt.address
      · exact ⟨_, by simp [Decision.ofRates], (shows_evaluate limits hs h (hpassed hl hp ha)).1,
          by simp [hl, hp, ha]⟩
      · exact ⟨_, by simp [Decision.ofRates], (shows_evaluate limits hs h (haddress hl hp ha)).1,
          by simp [ha]⟩
    · exact ⟨_, by simp [Decision.ofRates], (shows_evaluate limits hs h (hpassword hl hp)).1,
        by simp [hp]⟩
  · exact ⟨_, by simp [Decision.ofRates], (shows_evaluate limits hs h (hlogin hl)).1,
      by simp [hl]⟩

end Engine

/-! ## The law -/

namespace Session

variable {s : Session} {past : List Call}

theorem evaluate_denied (h : s.site.Follows past) {attempt : Attempt} {address : Address}
    (hv : attempt.validate = .ok address) (hdeny : CoveredBy past .deny address) :
    Engine.ByLists ((Engine.evaluate s.limits attempt).run Site.host s.site) s.site
      ⟨false, .denylisted⟩ :=
  (Engine.decide_denied s.limits h.sound attempt ((h.covered_iff ..).mpr hdeny)).evaluate
    s.limits hv

theorem evaluate_allowed (h : s.site.Follows past) {attempt : Attempt} {address : Address}
    (hv : attempt.validate = .ok address) (hdeny : ¬ CoveredBy past .deny address)
    (hallow : CoveredBy past .allow address) :
    Engine.ByLists ((Engine.evaluate s.limits attempt).run Site.host s.site) s.site
      ⟨true, .allowlisted⟩ :=
  (Engine.decide_allowed s.limits h.sound attempt (h.uncovered hdeny)
    ((h.covered_iff ..).mpr hallow)).evaluate s.limits hv

theorem evaluate_rated (h : s.site.Follows past) {attempt : Attempt} {address : Address}
    (hv : attempt.validate = .ok address) (hdeny : ¬ CoveredBy past .deny address)
    (hallow : ¬ CoveredBy past .allow address) :
    ∃ d ∈ Decision.ofRates, (s.step (.evaluate attempt)).result = .decision d := by
  have hunlisted : s.site.Unlisted attempt :=
    ⟨address, hv, fun list => by cases list <;> exact h.uncovered ‹_›⟩
  obtain ⟨d, hd, hresult, -⟩ := Engine.evaluate_rated s.limits h.sound hunlisted
  exact ⟨d, hd, s.evaluated_decision_iff.mpr hresult⟩

/-- What the rates decide is nothing that the lists decide. -/
theorem ne_of_rated {answer : Answer} {d : Decision}
    (h : ∃ d ∈ Decision.ofRates, answer = .decision d) (hd : d ∉ Decision.ofRates) :
    answer ≠ .decision d := by
  obtain ⟨d', hd', rfl⟩ := h
  intro heq
  exact hd (Answer.decision.inj heq ▸ hd')

theorem result_inList (h : s.site.Follows past) (list : AccessList) {text : String}
    {address : Address} (hparse : Address.parse text = .ok address) :
    ∃ b, (s.step (.inList list text)).result = .flag b ∧
      (b = true ↔ CoveredBy past list address) := by
  obtain ⟨b, hb, hcovered⟩ := h.listCovers list address
  obtain ⟨hresult, -, -, -⟩ := Engine.run_covers h.sound list address
  refine ⟨b, ?_, hcovered⟩
  simp only [step, converse, Engine.inList, Engine.withInput, hparse, hresult, hb, mapError_ok,
    Answer.ofResult]

/-- A text that is no address fails at once, whatever the lists hold. -/
theorem result_inList_invalid (s : Session) (list : AccessList) {text : String} {e : InvalidInput}
    (hparse : Address.parse text = .error e) :
    (s.step (.inList list text)).result = .failed (.invalid e) := by
  simp only [step, converse, Engine.inList, Engine.withInput, hparse]
  rfl

/-- The lists of a session that hold what stands by the calls decide as the calls say. -/
theorem verdictLaw (h : s.site.Follows past) : VerdictLaw past s := by
  constructor
  case added => exact fun r op list ip mask id => calls_of_added
  case removed => exact fun r op list ip mask => calls_of_removed
  case edited => exact fun r op call list subnet => exists_of_edit
  case denied =>
    intro attempt address hv
    by_cases hdeny : CoveredBy past .deny address
    · exact iff_of_true (s.evaluated_decision_iff.mpr (evaluate_denied h hv hdeny).1) hdeny
    · refine iff_of_false (fun hresult => ?_) hdeny
      by_cases hallow : CoveredBy past .allow address
      · rw [s.evaluated_decision_iff.mpr (evaluate_allowed h hv hdeny hallow).1] at hresult
        cases hresult
      · exact ne_of_rated (evaluate_rated h hv hdeny hallow) (by decide) hresult
  case allowed =>
    intro attempt address hv hdeny
    by_cases hallow : CoveredBy past .allow address
    · exact iff_of_true (s.evaluated_decision_iff.mpr (evaluate_allowed h hv hdeny hallow).1) hallow
    · exact iff_of_false (ne_of_rated (evaluate_rated h hv hdeny hallow) (by decide)) hallow
  case rated => exact fun attempt address hv hdeny hallow => evaluate_rated h hv hdeny hallow
  case uncounted =>
    intro attempt address hv hlisted
    by_cases hdeny : CoveredBy past .deny address
    · exact (evaluate_denied h hv hdeny).2
    · exact (evaluate_allowed h hv hdeny (hlisted.resolve_left hdeny)).2
  case inList => exact fun list text address hparse => result_inList h list hparse
  case otherList =>
    intro list more hmore hedits text
    cases hparse : Address.parse text with
    | error e => rw [result_inList_invalid _ list hparse, result_inList_invalid _ list hparse]
    | ok address =>
      obtain ⟨b, hb, hcovered⟩ := result_inList h list hparse
      obtain ⟨b', hb', hcovered'⟩ := result_inList (follows_timeline h hmore) list hparse
      have hsame : CoveredBy (past ++ s.timeline more) list address ↔ CoveredBy past list address :=
        exists_congr fun subnet =>
          and_congr_left' (listed_frames fun call hcall => hedits call hcall subnet)
      rw [hb, hb', Bool.eq_iff_iff.mpr (hcovered'.trans (hsame.trans hcovered.symm))]

end Session

/-- After any run of regular operations on lists that begin empty, the lists decide as the edits of
the run say. -/
theorem verdict_law (limits : Thresholds) (lists : ListStore) (sink : Sink) (audit : AuditTrail)
    (historyCapacity : Nat) (ops : List Op) (hlists : lists.Fresh) (hops : ∀ op ∈ ops, op.Regular) :
    let start := Session.create limits lists sink audit historyCapacity
    VerdictLaw (start.timeline ops) (start.after ops) := by
  intro start
  have hstart : start.site.Follows [] := ⟨rfl, hlists.holds⟩
  exact Session.verdictLaw (Session.follows_timeline hstart hops)

/-- An address stays denied when one of two pairs that cover it is taken off the deny list, though
the allow list holds its block as well. -/
theorem verdict_law_overlapping :
    let ops : List Op := [.add .deny "10.0.0.0" 8, .add .deny "10.1.2.3" 16,
      .add .allow "10.9.9.9" 8, .remove .deny "10.0.0.0" 8, .add .allow "10.1.2.3" 16]
    let start := Session.create ⟨1, 5, 5⟩ (.database .empty) .discard .absent 1
    ListStore.Fresh (.database .empty) ∧ (∀ op ∈ ops, op.Regular) ∧
      VerdictLaw (start.timeline ops) (start.after ops) := by
  intro ops start
  have hops : ∀ op ∈ ops, op.Regular := by simp [ops, Op.Regular]
  exact ⟨Or.inr rfl, hops, verdict_law _ _ _ _ _ ops (Or.inr rfl) hops⟩

end LoginAdmission
