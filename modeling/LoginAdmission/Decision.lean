/-
  Login attempts and the decisions on them.
-/
import LoginAdmission.Subnet
import LoginAdmission.Counter

namespace LoginAdmission

/-- One try to log in, as it was presented. -/
structure Attempt where
  login : String
  password : String
  address : String
deriving DecidableEq

/-- The address of an attempt whose parts are all present and well formed. -/
def Attempt.validate (a : Attempt) : Except InvalidInput Address :=
  if a.login.isEmpty then .error .emptyLogin
  else if a.password.isEmpty then .error .emptyPassword
  else Address.parse a.address

/-- The counted dimensions of an attempt, in the order in which they are checked. -/
def Attempt.dimensions (a : Attempt) : List (Dimension × String) :=
  [(.login, a.login), (.password, a.password), (.address, a.address)]

/-- Why an attempt was decided the way it was. -/
inductive Reason where
  | denylisted
  | allowlisted
  | loginRate
  | passwordRate
  | addressRate
  | passed
deriving DecidableEq

/-- The reason as a message. -/
def Reason.message : Reason → String
  | denylisted => "IP is in blacklist"
  | allowlisted => "IP is in whitelist"
  | loginRate => "Limited by login rate"
  | passwordRate => "Limited by password rate"
  | addressRate => "Limited by IP rate"
  | passed => "Check successful"

/-- The reason as a short word. -/
def Reason.name : Reason → String
  | denylisted => "denylisted"
  | allowlisted => "allowlisted"
  | loginRate => "login_rate"
  | passwordRate => "password_rate"
  | addressRate => "address_rate"
  | passed => "passed"

/-- The reason for a count over the limit. -/
def Dimension.reason : Dimension → Reason
  | login => .loginRate
  | password => .passwordRate
  | address => .addressRate

/-- Whether an attempt may proceed, and why. -/
structure Decision where
  allowed : Bool
  reason : Reason
deriving DecidableEq

/-- The verdict in a word. -/
def Decision.verdict (d : Decision) : String := if d.allowed then "allowed" else "denied"

/-- The decision as a message. -/
def Decision.message (d : Decision) : String := d.verdict ++ ": " ++ d.reason.message

end LoginAdmission
