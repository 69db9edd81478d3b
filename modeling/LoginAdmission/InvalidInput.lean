/-
  What can be wrong with the text and numbers of a request, and the message for each case.
-/
import LoginAdmission.Text.Digits
import LoginAdmission.Text.Quoted

namespace LoginAdmission

open Text

/-- Why the input of a request is refused. -/
inductive InvalidInput where
  | emptyLogin
  | emptyPassword
  | emptyAddress
  | malformedAddress (text : String)
  | missingMask
  | maskOutOfRange (mask : Nat)
deriving DecidableEq

/-- The message that names the fault. -/
def InvalidInput.message : InvalidInput → String
  | .emptyLogin => "void login"
  | .emptyPassword => "void password"
  | .emptyAddress => "void address"
  | .malformedAddress text => "malformed IPv4 address: " ++ quoted text
  | .missingMask => "void mask"
  | .maskOutOfRange mask => "incorrect mask " ++ decimal mask ++ " (expected 1..=31)"

end LoginAdmission
