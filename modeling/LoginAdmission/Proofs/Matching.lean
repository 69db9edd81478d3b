/-
  Sites whose stores reply alike.

  Two sites match when they have the same lists and the same faults, and counters in a relation
  that no request about the keys of interest can see through (`Counters.Congruence`). Their sinks
  may be any two: a sink replies nothing, and the lines it writes are those of telemetry alone.

  Main statement: `Procedure.run_matches`. A conversation at a matching site has the same result,
  makes the same calls, announces the same events and writes the same lines but for telemetry's, and
  it leaves sites that match.
-/
import LoginAdmission.Proofs.Conversation
import LoginAdmission.Session

namespace LoginAdmission

/-- The target of the lines that a sink writes. -/
def LogLine.sinkTarget : String := "bruteguard::telemetry"

/-- The lines that no sink wrote. -/
def LogLine.besideSink (lines : List LogLine) : List LogLine :=
  lines.filter fun line => line.target ≠ sinkTarget

theorem LogLine.besideSink_append (lines more : List LogLine) :
    besideSink (lines ++ more) = besideSink lines ++ besideSink more :=
  List.filter_append ..

/-- A sink writes lines of its own target only. -/
theorem Sink.besideSink_hear (event : Event) (sink : Sink) :
    LogLine.besideSink (sink.hear event).2 = [] := by
  cases sink <;> rfl

/-! ## Counters -/

/-- The request counts nothing, or a key of interest. No other request is told what a counter
reads. -/
def Request.About (keys : String → Prop) : Request → Prop
  | .increment key => keys key
  | _ => True

/-- A relation between counters through which no request about the keys of interest can see: those
counters read the same, and still do when any counter is written alike. -/
structure Counters.Congruence (keys : String → Prop) (R : Counters → Counters → Prop) : Prop where
  value : ∀ {c c'}, R c c' → ∀ key, keys key → c'.value key = c.value key
  set : ∀ {c c'}, R c c' → ∀ key n, R (c.set key n) (c'.set key n)
  empty : R .empty .empty

namespace Counters

/-- Every counter of the one reads what it reads in the other. Whether a counter that reads zero is
there at all makes no difference. -/
def SameValues (c c' : Counters) : Prop := ∀ key, c'.value key = c.value key

/-- The counter was written since the last flush. -/
def Tracks (c : Counters) (key : String) : Prop := key ∈ c.cells.map Prod.fst

/-- The counters of interest read the same in both, and are tracked in both or in neither. -/
def SameOn (keys : String → Prop) (c c' : Counters) : Prop :=
  ∀ key, keys key → c'.value key = c.value key ∧ (c'.Tracks key ↔ c.Tracks key)

theorem SameOn.refl {keys : String → Prop} (c : Counters) : c.SameOn keys c :=
  fun _ _ => ⟨rfl, Iff.rfl⟩

theorem tracks_set (c : Counters) (key other : String) (n : UInt64) :
    (c.set key n).Tracks other ↔ key = other ∨ c.Tracks other := by
  simp only [Tracks, set]
  induction c.cells with
  | nil => simp [put, eq_comm]
  | cons cell cells ih =>
    simp only [put]
    split
    · next hk => simp [hk, eq_comm]
    · rw [List.map_cons, List.mem_cons, ih, List.map_cons, List.mem_cons, or_left_comm]

theorem congruence_eq : Congruence (fun _ => True) Eq where
  value h _ _ := h ▸ rfl
  set h _ _ := h ▸ rfl
  empty := rfl

theorem congruence_sameValues : Congruence (fun _ => True) SameValues where
  value h key _ := h key
  set h key n other := by rw [value_set, value_set, h other]
  empty _ := rfl

theorem congruence_sameOn (keys : String → Prop) : Congruence keys (SameOn keys) where
  value h key hkey := (h key hkey).1
  set h key n other hother := by
    obtain ⟨hvalue, htracks⟩ := h other hother
    rw [value_set, value_set, hvalue, tracks_set, tracks_set, htracks]
    exact ⟨rfl, Iff.rfl⟩
  empty := .refl _

/-- A counter that is of no interest may be written. -/
theorem SameOn.set {keys : String → Prop} {c c' : Counters} (h : c.SameOn keys c') {key : String}
    (hkey : ¬ keys key) (n : UInt64) : c.SameOn keys (c'.set key n) := by
  intro other hother
  have hne : key ≠ other := fun heq => hkey (heq ▸ hother)
  rw [value_set, if_neg hne, tracks_set, or_iff_right hne]
  exact h other hother

end Counters

/-! ## Sites -/

variable {keys : String → Prop} {R : Counters → Counters → Prop}

/-- Two sites with the same lists and faults, and related counters. -/
structure Site.Matches (R : Counters → Counters → Prop) (s s' : Site) : Prop where
  lists : s'.stores.lists = s.stores.lists
  faults : s'.stores.faults = s.stores.faults
  counters : R s.stores.counters s'.stores.counters

namespace Site.Matches

variable {s s' : Site}

/-- Stores that answer themselves. -/
theorem serve (hR : Counters.Congruence keys R) (h : s.Matches R s') {request : Request}
    (hrequest : request.About keys) :
    let r := s.stores.serve request
    let r' := s'.stores.serve request
    r'.1 = r.1 ∧ Site.Matches R { s with stores := r.2.1 } { s' with stores := r'.2.1 } ∧
      r'.2.2 = r.2.2 := by
  cases request with
  | increment key =>
    have hvalue := hR.value h.counters key hrequest
    simp only [Stores.serve, Counters.increment, hvalue]
    exact ⟨trivial, ⟨h.lists, h.faults, hR.set h.counters key _⟩, trivial⟩
  | set key n => exact ⟨rfl, ⟨h.lists, h.faults, hR.set h.counters key n⟩, rfl⟩
  | flush => exact ⟨rfl, ⟨h.lists, h.faults, hR.empty⟩, rfl⟩
  | enumerate | contains | add | remove =>
    simp only [Stores.serve, Stores.withLists, h.lists]
    exact ⟨trivial, ⟨rfl, h.faults, h.counters⟩, trivial⟩

/-- A request is answered alike, whether it runs into a fault or not. -/
theorem answer (hR : Counters.Congruence keys R) (h : s.Matches R s') {request : Request}
    (hrequest : request.About keys) :
    let r := Site.host.answer request s
    let r' := Site.host.answer request s'
    r'.1 = r.1 ∧ r.2.1.Matches R r'.2.1 ∧ r'.2.2 = r.2.2 := by
  simp only [Site.host, Stores.answer, h.faults]
  split
  · exact ⟨rfl, h, rfl⟩
  · exact h.serve hR hrequest

/-- Events leave the stores alone. -/
theorem hear (h : s.Matches R s') (event : Event) :
    (Site.host.hear event s).1.Matches R (Site.host.hear event s').1 :=
  ⟨h.lists, h.faults, h.counters⟩

end Site.Matches

/-! ## Conversations -/

/-- Two conversations that went the same way at matching sites. -/
structure Transcript.Matches {α : Type} (R : Counters → Counters → Prop)
    (t t' : Transcript Site α) : Prop where
  result : t'.result = t.result
  state : t.state.Matches R t'.state
  calls : t'.calls = t.calls
  logs : LogLine.besideSink t'.logs = LogLine.besideSink t.logs
  events : t'.events = t.events

/-- Where every key is of interest, every conversation is about them. -/
theorem Procedure.asks_about_all {α : Type} (p : Procedure α) :
    p.Asks (Request.About fun _ => True) := by
  induction p with
  | done a => trivial
  | ask request next ih => exact ⟨by cases request <;> trivial, ih⟩
  | note line next ih => exact ih
  | announce event next ih => exact ih

/-- A conversation about the keys of interest goes the same way at matching sites. -/
theorem Procedure.run_matches {α : Type} (hR : Counters.Congruence keys R) {p : Procedure α}
    (hp : p.Asks (Request.About keys)) {s s' : Site} (h : s.Matches R s') :
    (p.run Site.host s).Matches R (p.run Site.host s') := by
  induction p generalizing s s' with
  | done a => exact ⟨rfl, h, rfl, rfl, rfl⟩
  | ask request next ih =>
    obtain ⟨hanswer, hstate, hlines⟩ := h.answer hR hp.1
    have hnext := ih (Site.host.answer request s).1 (hp.2 _) hstate
    simp only [run, hanswer, hlines]
    refine ⟨hnext.result, hnext.state, congrArg (_ :: ·) hnext.calls, ?_, hnext.events⟩
    rw [LogLine.besideSink_append, LogLine.besideSink_append, hnext.logs]
  | note line next ih =>
    have hnext := ih hp h
    refine ⟨hnext.result, hnext.state, hnext.calls, ?_, hnext.events⟩
    exact (LogLine.besideSink_append [line] _).trans
      ((congrArg _ hnext.logs).trans (LogLine.besideSink_append [line] _).symm)
  | announce event next ih =>
    have hnext := ih hp (h.hear event)
    refine ⟨hnext.result, hnext.state, hnext.calls, ?_, congrArg (event :: ·) hnext.events⟩
    simp only [run, LogLine.besideSink_append, Site.host, Sink.besideSink_hear, List.nil_append]
    exact hnext.logs

end LoginAdmission
