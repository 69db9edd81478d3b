/-
  The gate: login requests on their way to a handler.

  A request whose handler is ready is evaluated first. The handler sees it only when it is allowed;
  a denied one is turned away with the reason, one that cannot be evaluated with the failure.
-/
import LoginAdmission.Engine

namespace LoginAdmission

open Procedure

/-- The handler behind the gate: whether it is ready for a request, or else why not, and what it
replies to one that it is called with. -/
structure Handler where
  ready : Except String Unit
  reply : Attempt → Except String String

namespace Handler

/-- Whether the handler is ready for a request. -/
def isReady (h : Handler) : Bool := h.ready.isOk

theorem isReady_iff {h : Handler} : h.isReady = true ↔ h.ready = .ok () := by
  unfold isReady
  cases h.ready with
  | error text => exact ⟨nofun, nofun⟩
  | ok u => exact ⟨fun _ => rfl, fun _ => rfl⟩

theorem exists_of_not_isReady {h : Handler} (hready : ¬ h.isReady = true) :
    ∃ text, h.ready = .error text := by
  cases hresult : h.ready with
  | error text => exact ⟨text, rfl⟩
  | ok u => exact absurd (isReady_iff.mpr hresult) hready

/-- Welcomes whoever comes. -/
def welcoming : Handler := ⟨.ok (), fun attempt => .ok ("welcome " ++ attempt.login)⟩

/-- Fails on every request. -/
def failing : Handler := ⟨.ok (), fun _ => .error "boom"⟩

/-- Is not ready for any request. -/
def unready : Handler := { failing with ready := .error "not ready" }

end Handler

/-- Why the gate did not let a request through to a welcome. -/
inductive GateError where
  | denied (reason : Reason)
  | failed (failure : Failure)
  | inner (text : String)
deriving DecidableEq

namespace GateError

/-- The message of a gate error. -/
def message : GateError → String
  | denied reason => "login attempt denied: " ++ reason.message
  | failed failure => failure.message
  | inner text => "inner service error: " ++ text

/-- The reason of a denial. -/
def reason? : GateError → Option Reason
  | denied reason => some reason
  | _ => none

end GateError

/-- What came of a request at the gate, and whether the handler was called. -/
structure Passage where
  reply : Except GateError String
  handled : Bool

namespace Gate

/-- What a decision on a request leads to. -/
def passage (attempt : Attempt) (handler : Handler) : Except Failure Decision → Passage
  | .error e => ⟨.error (.failed e), false⟩
  | .ok decision =>
    if decision.allowed then ⟨(handler.reply attempt).mapError .inner, true⟩
    else ⟨.error (.denied decision.reason), false⟩

/-- Takes a request through the gate. -/
def pass (limits : Thresholds) (attempt : Attempt) (handler : Handler) : Procedure Passage :=
  match handler.ready with
  | .error text => done ⟨.error (.inner text), false⟩
  | .ok () => (Engine.evaluate limits attempt).map (passage attempt handler)

section

variable {limits : Thresholds} {attempt : Attempt} {handler : Handler}

theorem pass_of_ready (h : handler.isReady = true) :
    pass limits attempt handler =
      (Engine.evaluate limits attempt).map (passage attempt handler) := by
  rw [pass, Handler.isReady_iff.mp h]

theorem pass_of_unready {text : String} (h : handler.ready = .error text) :
    pass limits attempt handler = done ⟨.error (.inner text), false⟩ := by
  rw [pass, h]

end

end Gate

end LoginAdmission
