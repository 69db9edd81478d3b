/-
  The JSON forms of lists, subnets, entries, dimensions, reasons, decisions and limits.
-/
import LoginAdmission.Wire.Basic
import LoginAdmission.AccessList
import LoginAdmission.Decision

namespace LoginAdmission

open Json (Source Reading Layout Fields)

instance : Wire AccessList where
  encode list := .string list.name
  read := Json.readChoice AccessList.spellings

/-- The dimensions by their names. -/
def Dimension.choices : List (String × Dimension) :=
  [("login", .login), ("password", .password), ("address", .address)]

instance : Wire Dimension where
  encode d := .string d.name
  read := Json.readChoice Dimension.choices

/-- The reasons by their names. -/
def Reason.choices : List (String × Reason) :=
  [("denylisted", .denylisted), ("allowlisted", .allowlisted), ("login_rate", .loginRate),
    ("password_rate", .passwordRate), ("address_rate", .addressRate), ("passed", .passed)]

instance : Wire Reason where
  encode r := .string r.name
  read := Json.readChoice Reason.choices

/-- Reads the dotted form of an address. -/
def Address.read (j : Json) : Reading Address := do
  let s ← Json.readString "IPv4 address" j
  match Address.ofText? s with
  | some a => return a
  | none => Json.refuse (.refused "invalid IPv4 address syntax")

/-- The layout of an address and a mask. -/
def Subnet.layout : Layout (Address × UInt8) where
  name := "struct CidrRepr"
  tests := [("ip", Json.test Address.read), ("mask", Json.test Json.readByte)]
  build f := do
    let ip ← f.get 0 "ip" Address.read
    let mask ← f.get 1 "mask" Json.readByte
    return (ip, mask)

instance : Wire Subnet where
  encode s := .record [("ip", .string s.ip.text), ("mask", .nat s.mask)]
  read source j := do
    let (ip, mask) ← Subnet.layout.read source j
    match Subnet.ofMask ip mask.toNat with
    | .ok s => return s
    | .error e => Json.refuse (.refused e.message)

/-- The layout of an entry. -/
def Entry.layout (source : Source) : Layout Entry where
  name := "struct AddressEntry"
  tests := [("subnet", Json.test (Wire.read (α := Subnet) source)), ("id", Json.test Json.readWord)]
  build f := do
    let subnet ← f.get 0 "subnet" (Wire.read source)
    let id ← f.get 1 "id" Json.readWord
    return ⟨id, subnet⟩

instance : Wire Entry where
  encode e := .record [("subnet", Wire.encode e.subnet), ("id", Wire.encode e.id)]
  read source := (Entry.layout source).read source

/-- The layout of a decision. -/
def Decision.layout (source : Source) : Layout Decision where
  name := "struct Decision"
  tests := [("allowed", Json.test Json.readBool),
    ("reason", Json.test (Wire.read (α := Reason) source))]
  build f := do
    let allowed ← f.get 0 "allowed" Json.readBool
    let reason ← f.get 1 "reason" (Wire.read source)
    return ⟨allowed, reason⟩

instance : Wire Decision where
  encode d := .record [("allowed", Wire.encode d.allowed), ("reason", Wire.encode d.reason)]
  read source := (Decision.layout source).read source

/-- The layout of limits. -/
def Thresholds.layout : Layout Thresholds where
  name := "struct Thresholds"
  tests := [("login", Json.test Json.readWord), ("password", Json.test Json.readWord),
    ("address", Json.test Json.readWord)]
  build f := do
    let login ← f.get 0 "login" Json.readWord
    let password ← f.get 1 "password" Json.readWord
    let address ← f.get 2 "address" Json.readWord
    return ⟨login, password, address⟩

instance : Wire Thresholds where
  encode t := .record
    [("login", Wire.encode t.login), ("password", Wire.encode t.password),
      ("address", Wire.encode t.address)]
  read := Thresholds.layout.read

end LoginAdmission
