/-
  Reading JSON values by their shape.

  A value is read in the order of its text and the first fault is reported. It stands there in one
  of two ways. Read directly, it is taken in piece by piece while the text is scanned; members
  that nobody asked for are skipped. A value below a tag is buffered: all of it was taken in before
  any part is looked at.

  A structure is an object with the named members, or an array of them in their order. A tagged
  choice is an object whose tag names the variant and whose other members are the fields of the
  variant, or an array with the tag in front. A plain choice is a name, or an object with the name
  as its only key and nothing as its value.
-/
import LoginAdmission.Json.Mismatch

namespace LoginAdmission.Json

open Text

/-- How a value stands in its text. -/
inductive Source where
  | direct
  | buffered
deriving DecidableEq

/-- Reads a text. -/
def readString (expected : String) : Json → Reading String
  | string s => .ok s
  | j => unexpected j expected

/-- Reads a truth value. -/
def readBool : Json → Reading Bool
  | bool b => .ok b
  | j => unexpected j "a boolean"

/-- Reads an unsigned number below a bound. -/
def readUnsigned (bound : Nat) (expected : String) : Json → Reading Nat
  | number n =>
    match n.number? with
    | none => .error .malformed
    | some (.natural v) =>
      if v < bound then .ok v else refuse (.invalidValue (.number (.natural v)) expected)
    | some (.negativeInteger v) => refuse (.invalidValue (.number (.negativeInteger v)) expected)
    | some x => refuse (.invalidType (.number x) expected)
  | j => unexpected j expected

/-- Reads a number of 8 bits. -/
def readByte (j : Json) : Reading UInt8 := (readUnsigned byteBound "u8" j).map UInt8.ofNat

/-- Reads a number of 64 bits. -/
def readWord (j : Json) : Reading UInt64 := (readUnsigned wordBound "u64" j).map UInt64.ofNat

/-- Reads a number of 128 bits, which must be written as a run of digits. -/
def readWide : Json → Reading (BitVec 128)
  | number n =>
    if n.isWhole && !n.negative && digitsValue n.whole < wideBound then
      .ok (BitVec.ofNat 128 (digitsValue n.whole))
    else .error .malformed
  | _ => .error .malformed

/-- Reads nothing, or a value. -/
def readOption {α : Type} (read : Json → Reading α) : Json → Reading (Option α)
  | null => .ok none
  | j => (read j).map some

/-- Reads the items of an array. -/
def readItems {α : Type} (read : Json → Reading α) : Json → Reading (List α)
  | array items closed => do
    let values ← items.mapM read
    if closed then return values else .error .malformed
  | j => unexpected j "a sequence"

/-- The word for so many elements. -/
def elements (n : Nat) : String := decimal n ++ if n = 1 then " element" else " elements"

/-- The fields of a structure: members of an object, or items of an array. -/
inductive Fields where
  | named (members : List Member)
  | placed (items : List Json) (closed : Bool) (expected : String)

namespace Fields

/-- The value of a field, if it is there, by its place or its name. -/
def value? (place : Nat) (name : String) : Fields → Option Json
  | named members => members.lookup (some name)
  | placed items _ _ => items[place]?

/-- The fault of a field that is not there. -/
def absent (place : Nat) (name : String) : Fields → ReadFault
  | named _ => .mismatch (.missingField name)
  | placed _ true expected => .mismatch (.invalidLength place expected)
  | placed _ false _ => .malformed

/-- Reads a field that must be there. -/
def get {α : Type} (f : Fields) (place : Nat) (name : String) (read : Json → Reading α) :
    Reading α :=
  match f.value? place name with
  | some j => read j
  | none => .error (f.absent place name)

/-- Reads a field that may be missing. -/
def get? {α : Type} (f : Fields) (place : Nat) (name : String)
    (read : Json → Reading (Option α)) : Reading (Option α) :=
  match f.value? place name with
  | some j => read j
  | none =>
    match f with
    | placed _ false _ => .error .malformed
    | _ => .ok none

end Fields

/-- How a structure of type `α` is read: its name, a test for the value of each of its fields in
their order, and how it is made of them. -/
structure Layout (α : Type) where
  name : String
  tests : List (String × (Json → Reading Unit))
  build : Fields → Reading α

/-- Reads a value only to see whether it can be read. -/
def test {α : Type} (read : Json → Reading α) (j : Json) : Reading Unit := (read j).map fun _ => ()

/-- Walks the members of an object: a known one occurs once and passes its test, others are
skipped. -/
def scanFields (tests : List (String × (Json → Reading Unit))) :
    List String → List Member → Reading Unit
  | _, [] => .ok ()
  | _, (none, _) :: _ => .error .malformed
  | seen, (some key, value) :: members =>
    match tests.lookup key with
    | some test =>
      if key ∈ seen then refuse (.duplicateField key)
      else
        match test value with
        | .ok _ => scanFields tests (key :: seen) members
        | .error e => .error e
    | none => if value.isSkippable then scanFields tests seen members else .error .malformed

/-- The fault of an array with more items than a structure has fields. -/
def surplus (source : Source) (size length : Nat) : ReadFault :=
  match source with
  | .direct => .malformed
  | .buffered => .mismatch (.invalidLength length (elements size ++ " in sequence"))

/-- Reads a structure. -/
def Layout.read {α : Type} (l : Layout α) (source : Source) : Json → Reading α
  | object members closed => do
    scanFields l.tests [] members
    if closed then l.build (.named members) else .error .malformed
  | array items closed => do
    let size := l.tests.length
    let value ← l.build (.placed items closed (l.name ++ " with " ++ elements size))
    if !closed then .error .malformed
    else if size < items.length then .error (surplus source size items.length)
    else return value
  | j => unexpected j l.name

/-- Picks a variant by its name. -/
def choose {α : Type} (choices : List (String × α)) (name : String) : Reading α :=
  match choices.lookup name with
  | some a => .ok a
  | none => refuse (.unknownVariant name (choices.map (·.1)))

/-- Reads the value behind the name of a plain choice: nothing. -/
def readNothing (source : Source) : Json → Reading Unit
  | null => .ok ()
  | object [] closed =>
    if source = .buffered then .ok () else unexpected (object [] closed) "unit"
  | j => unexpected j "unit"

/-- Reads a plain choice. -/
def readChoice {α : Type} (choices : List (String × α)) (source : Source) : Json → Reading α
  | string s => choose choices s
  | object members closed =>
    match members with
    | (some key, value) :: rest =>
      if source = .buffered ∧ !rest.isEmpty then refuse (.invalidValue .map "map with a single key")
      else do
        let a ← choose choices key
        readNothing source value
        if rest.isEmpty && closed then return a else .error .malformed
    | (none, _) :: _ => .error .malformed
    | [] =>
      if source = .buffered then refuse (.invalidValue .map "map with a single key")
      else .error .malformed
  | j => if source = .buffered then unexpected j "string or map" else .error .malformed

/-- How a tagged choice of type `α` is read: the name of its tag, its own name, and for each
variant how the fields beside the tag are read. -/
structure Tagged (α : Type) where
  tag : String
  name : String
  variants : List (String × (Json → Reading α))

namespace Tagged

variable {α : Type}

/-- Reads the value of a tag. In a buffered value a variant may also be given by its place. -/
def readTag (t : Tagged α) (source : Source) : Json → Reading (Json → Reading α)
  | string s => choose t.variants s
  | number n =>
    match source, n.number? with
    | .buffered, some (.natural v) =>
      match t.variants[v]? with
      | some variant => .ok variant.2
      | none =>
        refuse (.invalidValue (.number (.natural v))
          ("variant index 0 <= i < " ++ decimal t.variants.length))
    | _, _ => unexpected (number n) "variant identifier"
  | j => unexpected j "variant identifier"

/-- Walks the members of an object and gives the variant that its tag names. The tag occurs once,
and all other members are taken in. -/
def scan (t : Tagged α) (source : Source) :
    Option (Json → Reading α) → List Member → Reading (Option (Json → Reading α))
  | variant, [] => .ok variant
  | _, (none, _) :: _ => .error .malformed
  | variant, (some key, value) :: members =>
    if key = t.tag then
      match variant with
      | some _ => refuse (.duplicateField key)
      | none =>
        match t.readTag source value with
        | .ok v => scan t source (some v) members
        | .error e => .error e
    else if value.isReadable then scan t source variant members
    else .error .malformed

/-- The members beside the tag. -/
def withoutTag (t : Tagged α) (members : List Member) : List Member :=
  members.filter fun m => m.1 ≠ some t.tag

/-- Reads a tagged choice. -/
def read (t : Tagged α) (source : Source) : Json → Reading α
  | object members closed => do
    let variant ← t.scan source none members
    if !closed then .error .malformed
    else
      match variant with
      | some readVariant => readVariant (object (t.withoutTag members) true)
      | none => refuse (.missingField t.tag)
  | array [] closed => if closed then refuse (.missingField t.tag) else .error .malformed
  | array (first :: items) closed => do
    let readVariant ← t.readTag source first
    if areReadable items && closed then readVariant (array items true) else .error .malformed
  | j => unexpected j t.name

end Tagged

/-- Reads the fields of a variant that has none. -/
def readEmpty {α : Type} (value : α) : Json → Reading α
  | array (_ :: items) _ =>
    refuse (.invalidLength (items.length + 1) (elements 0 ++ " in sequence"))
  | _ => .ok value

/-- The fields of a variant, read as a structure. -/
def Layout.variant {α : Type} (l : Layout α) : Json → Reading α := l.read .buffered

end LoginAdmission.Json
