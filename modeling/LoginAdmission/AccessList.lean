/-
  The two access lists: the addresses that are let in unseen, and the addresses that are kept out.
-/
import LoginAdmission.Text.Blank
import LoginAdmission.Text.Quoted

namespace LoginAdmission

open Text

/-- One of the two access lists. -/
inductive AccessList where
  | allow
  | deny
deriving DecidableEq

namespace AccessList

/-- The name of a list. -/
def name : AccessList → String
  | allow => "allow"
  | deny => "deny"

/-- The other list. -/
def opposite : AccessList → AccessList
  | allow => deny
  | deny => allow

/-- The accepted names, each with its list. -/
def spellings : List (String × AccessList) :=
  [("allow", allow), ("whitelist", allow), ("blacklist", deny), ("deny", deny)]

/-- Reads the name of a list in any letter case, with blanks around it. -/
def ofText? (s : String) : Option AccessList :=
  spellings.lookup (String.ofList ((trim s.toList).map Char.toLower))

/-- The message for a text that names no list. -/
def unknownMessage (s : String) : String := "bad list type: " ++ quoted s

end AccessList

end LoginAdmission
