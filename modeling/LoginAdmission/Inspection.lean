/-
  Descriptions of the parts of a program for those who look into it.

  Stores and handlers show only what they are, limits show their numbers.
-/
import LoginAdmission.Command

namespace LoginAdmission.Inspection

open Text
open Command (describeFields)

/-- The description of the limits. -/
def thresholds (t : Thresholds) : String :=
  describeFields "Thresholds"
    [("login", decimal t.login.toNat), ("password", decimal t.password.toNat),
      ("address", decimal t.address.toNat)]

/-- The description of a counter store. -/
def counterStore : String := quoted "<dyn CounterStore>"

/-- The description of a list store. -/
def listStore : String := quoted "<dyn ListStore>"

/-- The description of what counts attempts. -/
def limiter (t : Thresholds) : String :=
  describeFields "RateLimiter" [("counters", counterStore), ("thresholds", thresholds t)]

/-- The description of what decides attempts. -/
def engine (t : Thresholds) : String :=
  describeFields "DecisionEngine" [("lists", listStore), ("limiter", limiter t)]

/-- The description of what resets counters. -/
def scheduler : String := describeFields "ResetScheduler" [("counters", counterStore)]

/-- The description of the gate before it has a handler. -/
def layer (t : Thresholds) : String := describeFields "GuardLayer" [("engine", engine t)]

/-- The description of the gate in front of a handler. -/
def service : String := describeFields "GuardService" [("inner", "Handler")]

/-- All parts with their descriptions. -/
def all (t : Thresholds) : List (String × String) :=
  [("engine", engine t), ("limiter", limiter t), ("scheduler", scheduler), ("layer", layer t),
    ("service", service)]

end LoginAdmission.Inspection
