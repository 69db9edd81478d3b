/-
  Settings: the limits and the interval between two flushes, read from named variables.

  Every variable may be missing; then its standard value holds. One that is set must be an
  unsigned number of 64 bits, with blanks around it allowed. The variables are looked at in a
  fixed order and the first bad one is reported with its text as it was set.
-/
import LoginAdmission.Failure
import LoginAdmission.Counter
import LoginAdmission.Width

namespace LoginAdmission

open Text

/-- A span of time in whole seconds and nanoseconds. -/
structure Interval where
  seconds : UInt64
  nanoseconds : UInt32
deriving DecidableEq

/-- Whether no time passes in a span. -/
def Interval.isZero (i : Interval) : Bool := i.seconds == 0 && i.nanoseconds == 0

/-- The limits and the interval of the periodic flush. -/
structure Settings where
  thresholds : Thresholds
  interval : Interval
deriving DecidableEq

namespace Settings

/-- Settings are valid unless the interval is zero. -/
def make (thresholds : Thresholds) (interval : Interval) : Except SettingsError Settings :=
  if interval.isZero then .error .zeroInterval else .ok ⟨thresholds, interval⟩

/-- The variable that holds the limit of a dimension. -/
def limitVariable : Dimension → String
  | .login => "BRUTEGUARD_LIMIT_LOGIN"
  | .password => "BRUTEGUARD_LIMIT_PASSWORD"
  | .address => "BRUTEGUARD_LIMIT_ADDRESS"

/-- The variable that holds the interval in seconds. -/
def intervalVariable : String := "BRUTEGUARD_RESET_INTERVAL_SECS"

/-- The interval in seconds when none is set. -/
def standardSeconds : UInt64 := 60

/-- Reads the number of the variable `name`; `standard` holds when it is not set. -/
def readNumber (lookup : String → Option String) (name : String) (standard : UInt64) :
    Except SettingsError UInt64 :=
  match lookup name with
  | none => .ok standard
  | some value =>
    match unsigned? wordBound (trim value.toList) with
    | some n => .ok (UInt64.ofNat n)
    | none => .error (.invalidNumber name value)

/-- Reads the limit of a dimension. -/
def readLimit (lookup : String → Option String) (d : Dimension) : Except SettingsError UInt64 :=
  readNumber lookup (limitVariable d) (Thresholds.standard.limit d)

/-- Reads the settings from named variables. -/
def load (lookup : String → Option String) : Except SettingsError Settings := do
  let login ← readLimit lookup .login
  let password ← readLimit lookup .password
  let address ← readLimit lookup .address
  let seconds ← readNumber lookup intervalVariable standardSeconds
  make ⟨login, password, address⟩ ⟨seconds, 0⟩

end Settings

end LoginAdmission
