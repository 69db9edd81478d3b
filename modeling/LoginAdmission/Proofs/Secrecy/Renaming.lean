/-
  Renamed credentials: attempts, commands and operations with other logins and passwords in them,
  and the procedures and stores that differ no further.

  A renaming gives every login and every password another, two of a kind never the same, and leaves
  the empty text alone. `Call.Alike` says that two calls have the same answer to the same request,
  up to the renaming in the key of a counter; `Site.Alike` that the counters of two sites agree
  under the renaming and nothing else differs; `Procedure.Alike` that two conversations go the same
  way.

  Main statement: `Procedure.Alike.run`, which holds such conversations at such sites and finds the
  same result, log lines and events. Keys name one value of one dimension and renamings are
  injective, so no two counters are confused.
-/
import Mathlib.Data.List.Forall2
import LoginAdmission.Proofs.Conversation
import LoginAdmission.Proofs.Counting.Evaluation

namespace LoginAdmission

/-- Other logins and passwords for all of them. Only the empty text is mapped to the empty text. -/
structure Renaming where
  login : String → String
  password : String → String
  login_injective : ∀ s t, login s = login t → s = t
  password_injective : ∀ s t, password s = password t → s = t
  login_empty : login "" = ""
  password_empty : password "" = ""

namespace Renaming

variable (ρ : Renaming)

/-- Renames a value of a dimension. Addresses stay what they are. -/
def value : Dimension → String → String
  | .login => ρ.login
  | .password => ρ.password
  | .address => id

theorem value_injective (d : Dimension) {s t : String} (h : ρ.value d s = ρ.value d t) : s = t := by
  cases d with
  | login => exact ρ.login_injective s t h
  | password => exact ρ.password_injective s t h
  | address => exact h

/-- Two values share a counter just when they still do when they are renamed. -/
theorem key_eq_iff (d d' : Dimension) (s t : String) :
    d.key (ρ.value d s) = d'.key (ρ.value d' t) ↔ d.key s = d'.key t := by
  constructor
  · intro h
    obtain ⟨rfl, hvalue⟩ := Dimension.key_injective h
    rw [ρ.value_injective d hvalue]
  · intro h
    obtain ⟨rfl, rfl⟩ := Dimension.key_injective h
    rfl

theorem isEmpty_of_injective {f : String → String} (hinjective : ∀ s t, f s = f t → s = t)
    (hempty : f "" = "") (s : String) : (f s).isEmpty = s.isEmpty := by
  rw [Bool.eq_iff_iff, String.isEmpty_iff, String.isEmpty_iff]
  exact ⟨fun h => hinjective s "" (h.trans hempty.symm), fun h => h ▸ hempty⟩

theorem isEmpty_login (s : String) : (ρ.login s).isEmpty = s.isEmpty :=
  isEmpty_of_injective ρ.login_injective ρ.login_empty s

theorem isEmpty_password (s : String) : (ρ.password s).isEmpty = s.isEmpty :=
  isEmpty_of_injective ρ.password_injective ρ.password_empty s

end Renaming

/-- The attempt with another login and another password. -/
def Attempt.rename (ρ : Renaming) (a : Attempt) : Attempt :=
  { a with login := ρ.login a.login, password := ρ.password a.password }

theorem Attempt.validate_rename (ρ : Renaming) (a : Attempt) :
    (a.rename ρ).validate = a.validate := by
  simp only [validate, rename, ρ.isEmpty_login, ρ.isEmpty_password]

/-- The command with other logins and passwords in it. -/
def Command.rename (ρ : Renaming) : Command → Command
  | .check attempt => .check (attempt.rename ρ)
  | .resetLogin login => .resetLogin (ρ.login login)
  | command => command

theorem Command.label_rename (ρ : Renaming) (command : Command) :
    (command.rename ρ).label = command.label := by
  cases command <;> rfl

/-! ## Calls and sites -/

/-- A request that names no counter. -/
def Request.Keyless : Request → Prop
  | .increment _ | .set .. => False
  | _ => True

/-- The same request, up to the renaming in the key of a counter, with the same answer. -/
inductive Call.Alike (ρ : Renaming) : Call → Call → Prop
  | keyless {request : Request} (h : request.Keyless) (answer : Except StoreError request.Reply) :
    Alike ρ ⟨request, answer⟩ ⟨request, answer⟩
  | increment (d : Dimension) (value : String) (answer : Except StoreError UInt64) :
    Alike ρ ⟨.increment (d.key value), answer⟩ ⟨.increment (d.key (ρ.value d value)), answer⟩
  | set (d : Dimension) (value : String) (n : UInt64) (answer : Except StoreError Unit) :
    Alike ρ ⟨.set (d.key value) n, answer⟩ ⟨.set (d.key (ρ.value d value)) n, answer⟩

/-- Every counter of the one reads what the counter of the renamed value reads in the other. -/
def Counters.Alike (ρ : Renaming) (c c' : Counters) : Prop :=
  ∀ (d : Dimension) (value : String), c'.value (d.key (ρ.value d value)) = c.value (d.key value)

namespace Counters.Alike

variable {ρ : Renaming} {c c' : Counters}

theorem set (h : c.Alike ρ c') (d : Dimension) (value : String) (n : UInt64) :
    (c.set (d.key value) n).Alike ρ (c'.set (d.key (ρ.value d value)) n) := by
  intro d' value'
  simp only [value_set, ρ.key_eq_iff, h d' value']

theorem empty (ρ : Renaming) : Counters.empty.Alike ρ .empty := fun _ _ => rfl

end Counters.Alike

/-- Two sites without faults that differ in their counters alone, and there by the renaming. -/
structure Site.Alike (ρ : Renaming) (s s' : Site) : Prop where
  sound : s.Sound
  sound' : s'.Sound
  lists : s'.stores.lists = s.stores.lists
  sink : s'.sink = s.sink
  counters : s.stores.counters.Alike ρ s'.stores.counters

namespace Site.Alike

variable {ρ : Renaming} {s s' : Site}

/-- A request that names no counter is answered alike. -/
theorem answer (h : s.Alike ρ s') {request : Request} (hkeyless : request.Keyless) :
    let r := Site.host.answer request s
    let r' := Site.host.answer request s'
    r'.1 = r.1 ∧ r.2.1.Alike ρ r'.2.1 ∧ r'.2.2 = r.2.2 := by
  rw [host_answer_of_sound h.sound, host_answer_of_sound h.sound']
  cases request with
  | increment | set => exact hkeyless.elim
  | flush => exact ⟨rfl, ⟨h.sound, h.sound', h.lists, h.sink, .empty ρ⟩, rfl⟩
  | _ =>
    simp only [Stores.serve, Stores.withLists, h.lists]
    exact ⟨trivial, ⟨h.sound, h.sound', rfl, h.sink, h.counters⟩, trivial⟩

/-- So is a check of a value, under its names on either side. -/
theorem increment (h : s.Alike ρ s') (d : Dimension) (value : String) :
    let r := Site.host.answer (.increment (d.key value)) s
    let r' := Site.host.answer (.increment (d.key (ρ.value d value))) s'
    r'.1 = r.1 ∧ r.2.1.Alike ρ r'.2.1 ∧ r'.2.2 = r.2.2 := by
  rw [host_answer_of_sound h.sound, host_answer_of_sound h.sound']
  simp only [Stores.serve, Counters.increment, h.counters d value]
  exact ⟨trivial, ⟨h.sound, h.sound', h.lists, h.sink, h.counters.set d value _⟩, trivial⟩

/-- So is a write of its counter. -/
theorem set (h : s.Alike ρ s') (d : Dimension) (value : String) (n : UInt64) :
    let r := Site.host.answer (.set (d.key value) n) s
    let r' := Site.host.answer (.set (d.key (ρ.value d value)) n) s'
    r'.1 = r.1 ∧ r.2.1.Alike ρ r'.2.1 ∧ r'.2.2 = r.2.2 := by
  rw [host_answer_of_sound h.sound, host_answer_of_sound h.sound']
  exact ⟨rfl, ⟨h.sound, h.sound', h.lists, h.sink, h.counters.set d value n⟩, rfl⟩

theorem hear (h : s.Alike ρ s') (event : Event) :
    let r := Site.host.hear event s
    let r' := Site.host.hear event s'
    r.1.Alike ρ r'.1 ∧ r'.2 = r.2 := by
  simp only [Site.host, h.sink]
  exact ⟨⟨h.sound, h.sound', h.lists, rfl, h.counters⟩, trivial⟩

end Site.Alike

/-! ## Procedures -/

namespace Procedure

variable {ρ : Renaming} {α β : Type}

/-- Two conversations that go the same way, up to the renaming in the keys that they ask for. -/
inductive Alike (ρ : Renaming) : Procedure α → Procedure α → Prop
  | done (a : α) : Alike ρ (.done a) (.done a)
  | keyless {request : Request} {next next' : Except StoreError request.Reply → Procedure α}
    (h : request.Keyless) (hnext : ∀ answer, Alike ρ (next answer) (next' answer)) :
    Alike ρ (.ask request next) (.ask request next')
  | increment (d : Dimension) (value : String) {next next' : Except StoreError UInt64 → Procedure α}
    (hnext : ∀ answer, Alike ρ (next answer) (next' answer)) :
    Alike ρ (.ask (.increment (d.key value)) next)
      (.ask (.increment (d.key (ρ.value d value))) next')
  | set (d : Dimension) (value : String) (n : UInt64)
    {next next' : Except StoreError Unit → Procedure α}
    (hnext : ∀ answer, Alike ρ (next answer) (next' answer)) :
    Alike ρ (.ask (.set (d.key value) n) next) (.ask (.set (d.key (ρ.value d value)) n) next')
  | note (line : LogLine) {next next' : Procedure α} (hnext : Alike ρ next next') :
    Alike ρ (.note line next) (.note line next')
  | announce (event : Event) {next next' : Procedure α} (hnext : Alike ρ next next') :
    Alike ρ (.announce event next) (.announce event next')

namespace Alike

theorem bind {p p' : Procedure α} {f f' : α → Procedure β} (hp : p.Alike ρ p')
    (hf : ∀ a, (f a).Alike ρ (f' a)) : (p.bind f).Alike ρ (p'.bind f') := by
  induction hp with
  | done a => exact hf a
  | keyless h _ ih => exact .keyless h ih
  | increment d value _ ih => exact .increment d value ih
  | set d value n _ ih => exact .set d value n ih
  | note line _ ih => exact .note line ih
  | announce event _ ih => exact .announce event ih

theorem map (f : α → β) {p p' : Procedure α} (hp : p.Alike ρ p') : (p.map f).Alike ρ (p'.map f) :=
  hp.bind fun a => .done (f a)

/-- A procedure that asks for no counter goes its own way. -/
theorem of_asks {p : Procedure α} (h : p.Asks Request.Keyless) : p.Alike ρ p := by
  induction p with
  | done a => exact .done a
  | ask request next ih => exact .keyless h.1 fun answer => ih answer (h.2 answer)
  | note line next ih => exact .note line (ih h)
  | announce event next ih => exact .announce event (ih h)

end Alike

end Procedure

/-- Two conversations as they went, seen from outside: all is the same but the keys of counters. -/
structure Transcript.Alike {α : Type} (ρ : Renaming) (t t' : Transcript Site α) : Prop where
  result : t'.result = t.result
  state : t.state.Alike ρ t'.state
  calls : List.Forall₂ (Call.Alike ρ) t.calls t'.calls
  logs : t'.logs = t.logs
  events : t'.events = t.events

namespace Transcript.Alike

variable {ρ : Renaming} {α : Type} {t t' : Transcript Site α}

/-- What is asked before like conversations, if it is answered alike. -/
theorem asked (h : t.Alike ρ t') {call call' : Call} (hcall : call.Alike ρ call')
    (lines : List LogLine) :
    Alike ρ { t with calls := call :: t.calls, logs := lines ++ t.logs }
      { t' with calls := call' :: t'.calls, logs := lines ++ t'.logs } :=
  ⟨h.result, h.state, .cons hcall h.calls, congrArg (lines ++ ·) h.logs, h.events⟩

/-- What is written down and announced before them. -/
theorem told (h : t.Alike ρ t') (lines : List LogLine) (events : List Event) :
    Alike ρ { t with logs := lines ++ t.logs, events := events ++ t.events }
      { t' with logs := lines ++ t'.logs, events := events ++ t'.events } :=
  ⟨h.result, h.state, h.calls, congrArg (lines ++ ·) h.logs, congrArg (events ++ ·) h.events⟩

end Transcript.Alike

/-- Like conversations at like sites. -/
theorem Procedure.Alike.run {ρ : Renaming} {α : Type} {p p' : Procedure α} (hp : p.Alike ρ p')
    {s s' : Site} (hs : s.Alike ρ s') :
    (p.run Site.host s).Alike ρ (p'.run Site.host s') := by
  induction hp generalizing s s' with
  | done a => exact ⟨rfl, hs, .nil, rfl, rfl⟩
  | keyless h _ ih =>
    obtain ⟨hanswer, hstate, hlogs⟩ := hs.answer h
    simp only [Procedure.run, hanswer, hlogs]
    exact (ih _ hstate).asked (.keyless h _) _
  | increment d value _ ih =>
    obtain ⟨hanswer, hstate, hlogs⟩ := hs.increment d value
    simp only [Procedure.run, hanswer, hlogs]
    exact (ih _ hstate).asked (.increment d value _) _
  | set d value n _ ih =>
    obtain ⟨hanswer, hstate, hlogs⟩ := hs.set d value n
    simp only [Procedure.run, hanswer, hlogs]
    exact (ih _ hstate).asked (.set d value n _) _
  | note line _ ih => exact (ih hs).told [line] []
  | announce event _ ih =>
    obtain ⟨hheard, hlines⟩ := hs.hear event
    simp only [Procedure.run, hlines]
    exact (ih hheard).told _ [event]

end LoginAdmission
