/-
  Tallies: what the calls of a run say about a counter.

  The tally of a counter is the value it was last given, zero at first and after a flush, and the
  number of checks since then. It is read off the requests alone and looks at no count that a store
  answered. `Session.timeline` lists the calls of a run; a value that is written past the stores
  stands among them as a write.

  Main statements, for stores without faults: `explains_run` (every check that a procedure makes is
  answered with the next count of the tally, and the counter is left there) and
  `Session.explains_timeline`, the same of any run of operations that lay no fault.
-/
import LoginAdmission.Proofs.Steps

namespace LoginAdmission

/-- The value a counter was last given, and the number of checks since. -/
structure Tally where
  base : Nat
  checks : Nat

namespace Tally

/-- A counter that nobody wrote. -/
def start : Tally := ⟨0, 0⟩

/-- What the counter reads: the base and the checks together, up to the largest word. -/
def count (t : Tally) : Nat := min (t.base + t.checks) (wordBound - 1)

/-- The tally after one more check. -/
def checked (t : Tally) : Tally := { t with checks := t.checks + 1 }

/-- Follows a counter through a call. A call that fails leaves it alone. -/
def follow (key : String) (t : Tally) : Call → Tally
  | ⟨.increment k, .ok _⟩ => if k = key then t.checked else t
  | ⟨.set k n, .ok _⟩ => if k = key then ⟨n.toNat, 0⟩ else t
  | ⟨.flush, .ok _⟩ => start
  | _ => t

/-- Follows a counter through calls, from a tally on. -/
def followAll (key : String) (t : Tally) (calls : List Call) : Tally := calls.foldl (follow key) t

/-- The tally of a counter after calls that begin with no counter written. -/
def ofCalls (key : String) (calls : List Call) : Tally := followAll key start calls

/-- Every check of the counter is answered with the next count of the tally. -/
def Explains (key : String) : Tally → List Call → Prop
  | _, [] => True
  | t, call :: calls =>
    (∀ answer, call = ⟨.increment key, answer⟩ →
      ∃ n, answer = .ok n ∧ n.toNat = t.checked.count) ∧ Explains key (t.follow key call) calls

theorem followAll_cons (key : String) (t : Tally) (call : Call) (calls : List Call) :
    followAll key t (call :: calls) = followAll key (t.follow key call) calls := rfl

theorem followAll_append (key : String) (t : Tally) (calls more : List Call) :
    followAll key t (calls ++ more) = followAll key (followAll key t calls) more :=
  List.foldl_append

theorem explains_append {key : String} {t : Tally} {calls more : List Call} :
    Explains key t (calls ++ more) ↔
      Explains key t calls ∧ Explains key (followAll key t calls) more := by
  induction calls generalizing t with
  | nil => simp [Explains, followAll]
  | cons call calls ih =>
    rw [List.cons_append, Explains, Explains, ih, followAll_cons, and_assoc]

/-- The check behind any part of explained calls is answered with the next count. -/
theorem Explains.next {key : String} {t : Tally} {before after : List Call}
    {answer : Except StoreError UInt64}
    (h : Explains key t (before ++ ⟨.increment key, answer⟩ :: after)) :
    ∃ n, answer = .ok n ∧ n.toNat = (followAll key t before).checked.count :=
  (explains_append.mp h).2.1 answer rfl

end Tally

/-! ## One request -/

theorem toNat_saturatingSucc (n : UInt64) :
    (saturatingSucc n).toNat = min (n.toNat + 1) (wordBound - 1) := by
  have hn := n.toNat_lt
  unfold saturatingSucc wordBound
  split
  · rw [UInt64.toNat_add, UInt64.toNat_one]
    omega
  · omega

namespace Tally

theorem count_checked {t : Tally} {n : UInt64} (h : n.toNat = t.count) :
    (saturatingSucc n).toNat = t.checked.count := by
  rw [toNat_saturatingSucc, h]
  simp only [count, checked]
  omega

theorem count_increment (c : Counters) (k : String) {key : String} {t : Tally}
    (ht : (c.value key).toNat = t.count) :
    ((c.increment k).2.value key).toNat = (if k = key then t.checked else t).count := by
  simp only [Counters.increment, Counters.value_set]
  by_cases hk : k = key
  · subst hk
    rw [if_pos rfl, if_pos rfl]
    exact count_checked ht
  · rw [if_neg hk, if_neg hk]
    exact ht

theorem count_set (c : Counters) (k : String) (n : UInt64) {key : String} {t : Tally}
    (ht : (c.value key).toNat = t.count) :
    ((c.set k n).value key).toNat = (if k = key then (⟨n.toNat, 0⟩ : Tally) else t).count := by
  rw [Counters.value_set]
  by_cases hk : k = key
  · rw [if_pos hk, if_pos hk]
    have hlt : n.toNat < wordBound := n.toNat_lt
    simp only [count]
    omega
  · rw [if_neg hk, if_neg hk]
    exact ht

end Tally

namespace Site

/-- The site's stores have no fault laid on them. -/
def Sound (s : Site) : Prop := s.stores.faults = []

/-- What a counter of the site reads. -/
def count (s : Site) (key : String) : UInt64 := s.stores.counters.value key

/-- Sound stores answer every request themselves. -/
theorem answer_of_sound {s : Site} (h : s.Sound) (request : Request) :
    s.stores.answer request = s.stores.serve request := by
  unfold Stores.answer
  rw [h]
  rfl

theorem host_answer_of_sound {s : Site} (h : s.Sound) (request : Request) :
    Site.host.answer request s =
      ((s.stores.serve request).1, { s with stores := (s.stores.serve request).2.1 },
        (s.stores.serve request).2.2) := by
  simp only [Site.host, answer_of_sound h]

/-- One request to sound stores: a check is answered with the next count, and the counter goes where
its tally goes. -/
theorem answer_counts {s : Site} (hs : s.Sound) (request : Request) {key : String} {t : Tally}
    (ht : (s.count key).toNat = t.count) :
    let r := Site.host.answer request s
    r.2.1.Sound ∧ Tally.Explains key t [⟨request, r.1⟩] ∧
      (r.2.1.count key).toNat = (t.follow key ⟨request, r.1⟩).count := by
  rw [host_answer_of_sound hs]
  cases request with
  | enumerate list | contains list subnet | add list subnet | remove list subnet =>
    exact ⟨hs, ⟨nofun, trivial⟩, ht⟩
  | increment k =>
    refine ⟨hs, ⟨?_, trivial⟩, ?_⟩
    · rintro answer h
      cases h
      exact ⟨_, rfl, Tally.count_checked ht⟩
    · exact Tally.count_increment s.stores.counters k ht
  | set k n =>
    exact ⟨hs, ⟨nofun, trivial⟩, Tally.count_set s.stores.counters k n ht⟩
  | flush => exact ⟨hs, ⟨nofun, trivial⟩, rfl⟩

end Site

namespace Tally

variable {α : Type}

/-- A procedure that sound stores answer: every check is answered with the next count of the tally,
the counter is left where the tally ends, and the stores stay sound. -/
theorem explains_run (p : Procedure α) {s : Site} (hs : s.Sound) {key : String} {t : Tally}
    (ht : (s.count key).toNat = t.count) :
    let r := p.run Site.host s
    r.state.Sound ∧ Explains key t r.calls ∧
      (r.state.count key).toNat = (followAll key t r.calls).count := by
  induction p generalizing s t with
  | done result => exact ⟨hs, trivial, ht⟩
  | ask request next ih =>
    obtain ⟨hsound, hnext, hcount⟩ := Site.answer_counts hs request ht
    obtain ⟨hsound', hrest, hcount'⟩ := ih _ hsound hcount
    exact ⟨hsound', ⟨hnext.1, hrest⟩, hcount'⟩
  | note line next ih => exact ih hs ht
  | announce event next ih =>
    have hsound : (Site.host.hear event s).1.Sound := hs
    exact ih hsound ht

end Tally

/-! ## Runs of operations -/

/-- The write that an operation makes past the stores, as a call. -/
def Op.written : Op → List Call
  | .setCounter key value => [⟨.set key value, .ok ()⟩]
  | _ => []

/-- Beside the calls, the counters are changed by nothing but a write. -/
theorem Op.touch_counters {op : Op} (hwritten : op.written = []) (s : Site) :
    (op.touch s).stores.counters = s.stores.counters := by
  cases op with
  | setCounter k n => cases hwritten
  | clearEvents =>
    simp only [touch]
    split <;> rfl
  | insertRow | dropTable | closeDatabase | reattach => exact (s.withDatabase_frame _).1
  | _ => rfl

/-- Stores stay sound until a fault is laid on them. -/
theorem Op.touch_sound {op : Op} (hop : ∀ fault, op ≠ .fail fault) {s : Site} (hs : s.Sound) :
    (op.touch s).Sound := by
  cases op with
  | fail fault => exact absurd rfl (hop fault)
  | heal => exact rfl
  | clearEvents =>
    simp only [touch]
    split <;> exact hs
  | insertRow | dropTable | closeDatabase | reattach => exact (s.withDatabase_frame _).2.1.trans hs
  | _ => exact hs

namespace Session

/-- The calls of a run in order, with the values that are written past the stores among them. -/
def timeline (s : Session) : List Op → List Call
  | [] => []
  | op :: ops => op.written ++ (s.step op).calls ++ timeline (s.step op).state ops

/-- The counter goes where its tally goes while an operation is done, and its checks are answered
with the next count. -/
def Counted (key : String) (t : Tally) (calls : List Call) (after : Session) : Prop :=
  after.site.Sound ∧ Tally.Explains key t calls ∧
    (after.site.count key).toNat = (Tally.followAll key t calls).count

/-- Any operation but one that lays a fault. -/
theorem counted_step {s : Session} (hs : s.site.Sound) {op : Op} (hop : ∀ fault, op ≠ .fail fault)
    {key : String} {t : Tally} (ht : (s.site.count key).toNat = t.count) :
    Counted key t (op.written ++ (s.step op).calls) (s.step op).state := by
  obtain ⟨hcalls, -, hsite⟩ := s.step_site op
  obtain ⟨hsound, hexplains, hcount⟩ := Tally.explains_run (s.talk op) hs ht
  unfold Counted
  rw [hcalls, hsite]
  by_cases hwritten : op.written = []
  · rw [hwritten, Site.count, Op.touch_counters hwritten]
    exact ⟨Op.touch_sound hop hsound, hexplains, hcount⟩
  · cases op with
    | setCounter k n =>
      exact ⟨hs, ⟨nofun, trivial⟩, Tally.count_set s.site.stores.counters k n ht⟩
    | _ => exact absurd rfl hwritten

/-- Any run of operations that lay no fault. -/
theorem explains_timeline {s : Session} (hs : s.site.Sound) {ops : List Op}
    (hops : ∀ fault, Op.fail fault ∉ ops) {key : String} {t : Tally}
    (ht : (s.site.count key).toNat = t.count) : Counted key t (s.timeline ops) (s.after ops) := by
  induction ops generalizing s t with
  | nil => exact ⟨hs, trivial, ht⟩
  | cons op ops ih =>
    have hop : ∀ fault, op ≠ .fail fault := fun fault h => hops fault (h ▸ List.mem_cons_self)
    obtain ⟨hsound, hstep, hcount⟩ := counted_step hs hop ht
    obtain ⟨hsound', hrest, hcount'⟩ :=
      ih hsound (fun fault h => hops fault (List.mem_cons_of_mem op h)) hcount
    refine ⟨hsound', Tally.explains_append.mpr ⟨hstep, hrest⟩, ?_⟩
    rw [timeline, Tally.followAll_append]
    exact hcount'

end Session

end LoginAdmission
