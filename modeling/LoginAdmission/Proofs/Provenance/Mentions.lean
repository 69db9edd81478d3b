/-
  Which subnets a value holds.

  `Mentions` tells them for everything that passes between an operation, its stores and those who
  look on: entries, errors, events, log lines, outcomes and answers. A text that was made of a
  subnet holds none. `Only P` says that all subnets of a value have a property, so that it can be
  followed from what is put in to what comes out.
-/
import LoginAdmission.Session

namespace LoginAdmission

/-- A type whose values may hold subnets. -/
class Mentions (α : Type) where
  subnets : α → List Subnet

open Mentions (subnets)

/-- All subnets in a value have the property. -/
def Only {α : Type} [Mentions α] (P : Subnet → Prop) (a : α) : Prop := ∀ s ∈ subnets a, P s

/-! ## Plain values and containers -/

section Containers

variable {α ε : Type}

instance : Mentions Unit := ⟨fun _ => []⟩

instance : Mentions Bool := ⟨fun _ => []⟩

instance : Mentions UInt64 := ⟨fun _ => []⟩

instance : Mentions String := ⟨fun _ => []⟩

instance : Mentions Decision := ⟨fun _ => []⟩

instance : Mentions RateCheck := ⟨fun _ => []⟩

instance : Mentions Subnet := ⟨fun s => [s]⟩

instance : Mentions Entry := ⟨fun e => [e.subnet]⟩

instance [Mentions α] : Mentions (List α) := ⟨fun as => as.flatMap subnets⟩

/-- The subnets of a result, or of the error in its place. -/
def subnetsOfResult [Mentions ε] [Mentions α] : Except ε α → List Subnet
  | .ok a => subnets a
  | .error e => subnets e

instance [Mentions ε] [Mentions α] : Mentions (Except ε α) := ⟨subnetsOfResult⟩

end Containers

/-! ## Errors, events and log lines -/

/-- The subnet that an edit was refused for. -/
def StoreError.subnets : StoreError → List Subnet
  | conflict _ s | notFound _ s => [s]
  | unavailable _ | corrupt _ | contention .. => []

instance : Mentions StoreError := ⟨StoreError.subnets⟩

instance : Mentions Fault := ⟨fun fault => subnets fault.error⟩

/-- The subnet that an operation failed for. -/
def Failure.subnets : Failure → List Subnet
  | conflict _ s | notFound _ s => [s]
  | storage e => e.subnets
  | invalid _ | settings _ => []

instance : Mentions Failure := ⟨Failure.subnets⟩

/-- The subnet that was added or removed. -/
def Event.subnets : Event → List Subnet
  | added _ s _ | removed _ s => [s]
  | evaluated _ | counterReset _ | countersFlushed | flushFailed => []

instance : Mentions Event := ⟨Event.subnets⟩

/-- The subnets that a log line tells of. -/
def LogLine.subnets : LogLine → List Subnet
  | evaluationFailed _ failure => failure.subnets
  | added _ s _ | removed _ s => [s]
  | addFailed _ s e | removeFailed _ s e => s :: e.subnets
  | counterResetFailed _ e | flushFailed e => e.subnets
  | telemetry event => event.subnets
  | evaluated .. | thresholdExceeded .. | counterReset _ | countersFlushed | periodicStarted _
  | periodicStopped | executed .. | audited .. | databaseFailed _ => []

instance : Mentions LogLine := ⟨LogLine.subnets⟩

/-! ## Requests, outcomes and answers -/

/-- The subnet that a request is about. -/
def Request.subnets : Request → List Subnet
  | contains _ s | add _ s | remove _ s => [s]
  | enumerate _ | increment _ | set .. | flush => []

instance : Mentions Request := ⟨Request.subnets⟩

instance (request : Request) : Mentions request.Reply :=
  match request with
  | .enumerate _ => inferInstanceAs (Mentions (List Entry))
  | .contains .. => inferInstanceAs (Mentions Bool)
  | .add .. => inferInstanceAs (Mentions UInt64)
  | .remove .. => inferInstanceAs (Mentions Unit)
  | .increment _ => inferInstanceAs (Mentions UInt64)
  | .set .. => inferInstanceAs (Mentions Unit)
  | .flush => inferInstanceAs (Mentions Unit)

instance : Mentions Call := ⟨fun call => subnets call.request ++ subnets call.answer⟩

/-- A command's fault is a text. -/
instance : Mentions CommandFault := ⟨fun _ => []⟩

/-- The subnets in an outcome. -/
def Outcome.subnets : Outcome → List Subnet
  | .entries es => Mentions.subnets es
  | .failed fault => Mentions.subnets fault
  | .acknowledged | .decision _ | .added _ | .listed _ => []

instance : Mentions Outcome := ⟨Outcome.subnets⟩

instance : Mentions JournalEntry := ⟨fun entry => subnets entry.outcome⟩

instance : Mentions HistoryRecord := ⟨fun record => subnets record.outcome⟩

instance : Mentions CommandError := ⟨fun _ => []⟩

/-- The subnet in a gate error. -/
def GateError.subnets : GateError → List Subnet
  | .failed failure => failure.subnets
  | .denied _ | .inner _ => []

instance : Mentions GateError := ⟨GateError.subnets⟩

instance : Mentions Passage := ⟨fun passage => subnets passage.reply⟩

/-- The subnets that an operation is answered with. -/
def Answer.subnets : Answer → List Subnet
  | .failed failure => failure.subnets
  | .storeFailed e => e.subnets
  | .entries es => Mentions.subnets es
  | .events es _ => Mentions.subnets es
  | .passage reply _ => Mentions.subnets reply
  | .command result => Mentions.subnets result
  | .history es => Mentions.subnets es
  | .done | .rejected | .decision _ | .flag _ | .added _ | .limits _ | .checked _ | .counters ..
  | .audit _ | .description _ => []

instance : Mentions Answer := ⟨Answer.subnets⟩

/-- All that is seen of a conversation, or of a step. -/
instance {σ α : Type} [Mentions α] : Mentions (Transcript σ α) :=
  ⟨fun t => subnets t.result ++ subnets t.calls ++ subnets t.logs ++ subnets t.events⟩

/-! ## A property of all subnets -/

section Only

variable {α : Type} [Mentions α] {P Q : Subnet → Prop}

theorem Only.mono {a : α} (h : Only P a) (hPQ : ∀ s, P s → Q s) : Only Q a :=
  fun s hs => hPQ s (h s hs)

/-- A value that holds no subnet. -/
theorem only_of_nil {a : α} (h : subnets a = []) : Only P a := by
  unfold Only
  rw [h]
  nofun

@[simp]
theorem only_subnet {s : Subnet} : Only P s ↔ P s := List.forall_mem_singleton

@[simp]
theorem only_entry {e : Entry} : Only P e ↔ P e.subnet := List.forall_mem_singleton

theorem only_list {as : List α} : Only P as ↔ ∀ a ∈ as, Only P a := by
  unfold Only
  simp only [subnets, List.mem_flatMap]
  exact ⟨fun h a ha s hs => h s ⟨a, ha, hs⟩, fun h s ⟨a, ha, hs⟩ => h a ha s hs⟩

@[simp]
theorem only_nil : Only P ([] : List α) := only_list.mpr nofun

@[simp]
theorem only_cons {a : α} {as : List α} : Only P (a :: as) ↔ Only P a ∧ Only P as := by
  simp only [only_list, List.forall_mem_cons]

@[simp]
theorem only_append {as bs : List α} : Only P (as ++ bs) ↔ Only P as ∧ Only P bs := by
  simp only [only_list, List.forall_mem_append]

@[simp]
theorem only_call {call : Call} : Only P call ↔ Only P call.request ∧ Only P call.answer :=
  List.forall_mem_append

theorem only_transcript {σ : Type} {t : Transcript σ α} :
    Only P t ↔ Only P t.result ∧ Only P t.calls ∧ Only P t.logs ∧ Only P t.events := by
  unfold Only
  simp only [subnets, List.forall_mem_append, and_assoc]

/-- A store's error tells of the same subnets as a failure. -/
theorem only_ofStore {e : StoreError} (h : Only P e) : Only P (Failure.ofStore e) := by
  cases e <;> exact h

end Only

end LoginAdmission
