/-
  Subnets: an address with a mask of 1 to 31 leading bits, and the entries of an access list.

  A subnet is the exact pair it was given as, so two subnets may differ and still cover the same
  block of addresses. Its text is `address/mask`. Reading a text splits it at the first slash and
  forgives blanks on both sides of each part.
-/
import LoginAdmission.Address
import LoginAdmission.InvalidInput
import LoginAdmission.Text.Blank
import LoginAdmission.Width

namespace LoginAdmission

open Text

/-- Reads an address, telling an empty text from a malformed one. -/
def Address.parse (s : String) : Except InvalidInput Address :=
  if s.isEmpty then .error .emptyAddress
  else
    match Address.ofText? s with
    | some a => .ok a
    | none => .error (.malformedAddress s)

/-- An address and the number of its leading bits that the members of the block share. -/
structure Subnet where
  ip : Address
  mask : Nat
  mask_pos : 1 ≤ mask
  mask_le : mask ≤ 31
deriving DecidableEq

namespace Subnet

/-- A word shifted to the left, by less than its width. -/
def shiftedLeft? (w : BitVec 32) (n : Nat) : Option (BitVec 32) :=
  if n < 32 then some (w <<< n) else none

/-- The word whose leading `mask` bits are set; no bit at all if the shift were too wide. -/
def netmask (s : Subnet) : BitVec 32 := (shiftedLeft? (BitVec.allOnes 32) (32 - s.mask)).getD 0

/-- The first address of the block. -/
def network (s : Subnet) : Address := ⟨s.ip.bits &&& s.netmask⟩

/-- Whether the block covers an address: both agree on the leading bits. -/
def contains (s : Subnet) (a : Address) : Bool :=
  (a.bits &&& s.netmask) == (s.ip.bits &&& s.netmask)

/-- The pair as it was given. -/
def text (s : Subnet) : String := s.ip.text ++ "/" ++ decimal s.mask

/-- The subnet of an address and a mask, if the mask is one. -/
def ofMask (ip : Address) (mask : Nat) : Except InvalidInput Subnet :=
  if mask = 0 then .error .missingMask
  else if h : 1 ≤ mask ∧ mask ≤ 31 then .ok ⟨ip, mask, h.1, h.2⟩
  else .error (.maskOutOfRange mask)

/-- The subnet of an address text and a mask; the address is looked at first. -/
def make (ip : String) (mask : UInt8) : Except InvalidInput Subnet :=
  match Address.parse ip with
  | .ok a => ofMask a mask.toNat
  | .error e => .error e

/-- The parts of a text before and after its first slash. -/
def splitSlash? (cs : List Char) : Option (List Char × List Char) :=
  match cs.span (· ≠ '/') with
  | (before, '/' :: after) => some (before, after)
  | _ => none

/-- Reads `address/mask`. A mask that is no number up to 255 makes the whole text malformed. -/
def parse (s : String) : Except InvalidInput Subnet :=
  match splitSlash? s.toList with
  | none => .error .missingMask
  | some (ip, mask) =>
    match unsigned? byteBound (trim mask) with
    | none => .error (.malformedAddress s)
    | some m => make (String.ofList (trim ip)) (UInt8.ofNat m)

end Subnet

/-- A subnet on an access list, under the number it was given when it was added. -/
structure Entry where
  id : UInt64
  subnet : Subnet
deriving DecidableEq

namespace Entry

/-- How an entry is shown. -/
def text (e : Entry) : String := "[ID: " ++ decimal e.id.toNat ++ ", IP: " ++ e.subnet.text ++ "]"

/-- The first entry whose block covers the address. -/
def findContaining (a : Address) (entries : List Entry) : Option Entry :=
  entries.find? (·.subnet.contains a)

/-- Whether some entry's block covers the address. -/
def covers (a : Address) (entries : List Entry) : Bool := (findContaining a entries).isSome

end Entry

end LoginAdmission
