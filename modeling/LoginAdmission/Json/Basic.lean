/-
  JSON values, as far as a text holds one.

  A text is read up to the point where it stops being JSON, and a value keeps what was there: an
  array or object says whether its end was found, `broken` stands where no value could be read. A
  value that is well formed but cannot be taken in (a numeral beyond all numbers, a text with half
  a surrogate pair, too deep a nesting) is `unreadable`: it may be skipped but not read. The same
  holds of a key. So who walks a value in the order of the text meets the first fault first.
-/
import LoginAdmission.Json.Numeral

namespace LoginAdmission

/-- A JSON value, with its faults. -/
inductive Json where
  | null
  | bool (value : Bool)
  | number (numeral : Json.Numeral)
  | string (value : String)
  | array (items : List Json) (closed : Bool)
  | object (members : List (Option String × Json)) (closed : Bool)
  | unreadable
  | broken
deriving Inhabited

namespace Json

/-- An object member: its key, unless that is unreadable, and its value. -/
abbrev Member := Option String × Json

/-- The whole number as a value. -/
def nat (n : Nat) : Json := number (.ofNat n)

/-- An array of these items. -/
def list (items : List Json) : Json := array items true

/-- An object of these members, in this order. -/
def record (members : List (String × Json)) : Json :=
  object (members.map fun (key, value) => (some key, value)) true

mutual

/-- Whether a value is well formed, so that it can be skipped. -/
def isSkippable : Json → Bool
  | broken => false
  | array items closed => closed && areSkippable items
  | object members closed => closed && membersAreSkippable members
  | _ => true

/-- Whether all of these values are well formed. -/
def areSkippable : List Json → Bool
  | [] => true
  | item :: items => isSkippable item && areSkippable items

/-- Whether the values of all of these members are well formed. -/
def membersAreSkippable : List Member → Bool
  | [] => true
  | (_, value) :: members => isSkippable value && membersAreSkippable members

end

mutual

/-- Whether a value has no fault, so that it can be read as a whole. -/
def isReadable : Json → Bool
  | broken | unreadable => false
  | array items closed => closed && areReadable items
  | object members closed => closed && membersAreReadable members
  | _ => true

/-- Whether none of these values has a fault. -/
def areReadable : List Json → Bool
  | [] => true
  | item :: items => isReadable item && areReadable items

/-- Whether none of these members has a fault. -/
def membersAreReadable : List Member → Bool
  | [] => true
  | (key, value) :: members => key.isSome && isReadable value && membersAreReadable members

end

end Json

/-- What a whole text holds: a value, and whether nothing but blanks follows it. -/
structure JsonText where
  value : Json
  ended : Bool

end LoginAdmission
