/-
  How an operation can fail, each cause with its message.

  A store refuses an edit that the lists already contradict, or fails for reasons of its own. An
  operation fails because its input is invalid, because of the lists, because of a store, or
  because of the settings. Refused edits stay what they are on the way up; everything else a store
  reports is wrapped as a storage failure.
-/
import LoginAdmission.AccessList
import LoginAdmission.Subnet

namespace LoginAdmission

open Text

/-- Why a store did not do what it was asked. -/
inductive StoreError where
  | conflict (list : AccessList) (subnet : Subnet)
  | notFound (list : AccessList) (subnet : Subnet)
  | unavailable (text : String)
  | corrupt (text : String)
  | contention (key : String) (attempts : Nat)
deriving DecidableEq

/-- The message for a pair that a list holds already. -/
def conflictMessage (list : AccessList) (subnet : Subnet) : String :=
  subnet.text ++ " is already in the " ++ list.name ++ " list"

/-- The message for a pair that a list does not hold. -/
def notFoundMessage (list : AccessList) (subnet : Subnet) : String :=
  subnet.text ++ " is not in the " ++ list.name ++ " list"

/-- The message of a store's failure. -/
def StoreError.message : StoreError → String
  | .conflict list subnet => conflictMessage list subnet
  | .notFound list subnet => notFoundMessage list subnet
  | .unavailable text => "storage unavailable: " ++ text
  | .corrupt text => "corrupt record: " ++ text
  | .contention key attempts =>
    "gave up on " ++ key ++ " after " ++ decimal attempts ++ " conflicting updates"

/-- What can be wrong with the settings, or with where they are used. -/
inductive SettingsError where
  | zeroInterval
  | invalidNumber (name value : String)
  | noRuntime
deriving DecidableEq

/-- The message for a fault in the settings. -/
def SettingsError.message : SettingsError → String
  | .zeroInterval => "reset_interval must be > 0"
  | .invalidNumber name value =>
    name ++ " must be an unsigned integer (got " ++ quoted value ++ ")"
  | .noRuntime => "periodic reset requires a running Tokio runtime"

/-- Why an operation failed. -/
inductive Failure where
  | invalid (input : InvalidInput)
  | conflict (list : AccessList) (subnet : Subnet)
  | notFound (list : AccessList) (subnet : Subnet)
  | storage (error : StoreError)
  | settings (error : SettingsError)
deriving DecidableEq

namespace Failure

/-- A store's error as the failure of the operation that asked it. -/
def ofStore : StoreError → Failure
  | .conflict list subnet => .conflict list subnet
  | .notFound list subnet => .notFound list subnet
  | error => .storage error

/-- The message of a failure. -/
def message : Failure → String
  | .invalid input => "validation: " ++ input.message
  | .conflict list subnet => conflictMessage list subnet
  | .notFound list subnet => notFoundMessage list subnet
  | .storage error => "storage: " ++ error.message
  | .settings error => "config: " ++ error.message

/-- What was wrong with the input, if that is why the operation failed. -/
def invalidInput? : Failure → Option InvalidInput
  | .invalid input => some input
  | _ => none

/-- Whether the pair was held already. -/
def isConflict : Failure → Bool
  | .conflict .. => true
  | _ => false

/-- Whether the pair was not held. -/
def isNotFound : Failure → Bool
  | .notFound .. => true
  | _ => false

/-- Whether a store failed for reasons of its own. -/
def isStorage : Failure → Bool
  | .storage _ => true
  | _ => false

end Failure

end LoginAdmission
