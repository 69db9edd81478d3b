/-
  Access lists held in a database: one table of rows for each list.

  The rows of a table are unique in their number and in their pair of address and mask, but what
  they hold is not checked until they are read as entries; then the first row that is no entry
  fails the reading. A new row gets the number above the largest that the table ever held. Each
  operation is one transaction: it is done wholly or changes nothing. A table may be missing and the
  connection closed; everything that needs them then fails.
-/
import LoginAdmission.Failure
import LoginAdmission.Storage.Cell
import LoginAdmission.Width

namespace LoginAdmission.Storage

open Text

/-- The name of the table of a list. -/
def tableName (list : AccessList) : String := list.name ++ "_list"

/-- One row of a table. -/
structure Row where
  id : Int
  ip : Cell
  mask : Cell
deriving DecidableEq

namespace Row

/-- The row that holds a subnet. -/
def ofSubnet (id : Int) (subnet : Subnet) : Row :=
  ⟨id, .text subnet.ip.text, .integer subnet.mask⟩

/-- Whether two rows hold the same pair. -/
def samePair (r s : Row) : Bool := r.ip = s.ip && r.mask = s.mask

/-- Whether a row holds a subnet as it would be written. -/
def holds (r : Row) (subnet : Subnet) : Bool := r.samePair (ofSubnet r.id subnet)

/-- The message for a column that holds another type than the one it is read as. -/
def mismatch (column wanted wantedType : String) (cell : Cell) : String :=
  "error occurred while decoding column \"" ++ column ++ "\": mismatched types; Rust type `"
    ++ wanted ++ "` (as SQL type `" ++ wantedType ++ "`) is not compatible with SQL type `"
    ++ cell.typeName ++ "`"

/-- The address column as text. -/
def ipText (r : Row) : Except String String :=
  match r.ip with
  | .text s => .ok s
  | cell => .error (mismatch "ip" "alloc::string::String" "TEXT" cell)

/-- The mask column as a number. -/
def maskNumber (r : Row) : Except String Int :=
  match r.mask with
  | .integer n => .ok n
  | cell => .error (mismatch "mask" "i64" "INTEGER" cell)

/-- The message for a row whose columns have the right types and still make no entry. -/
def fault (list : AccessList) (r : Row) (what : String) : String :=
  tableName list ++ " row " ++ toString r.id ++ ": " ++ what

/-- Reads a row as an entry of a list: the types of its columns, then the range of the mask, the
subnet, and the sign of the number. -/
def entry (list : AccessList) (r : Row) : Except String Entry := do
  let ip ← r.ipText
  let mask ← r.maskNumber
  if mask < 0 ∨ 255 < mask then
    throw (r.fault list ("mask " ++ toString mask ++ " out of range"))
  match Subnet.make ip (UInt8.ofNat mask.toNat) with
  | .error e => throw (r.fault list e.message)
  | .ok subnet =>
    if r.id < 0 then throw (r.fault list "negative id")
    return ⟨UInt64.ofNat r.id.toNat, subnet⟩

end Row

/-- The rows of one list in ascending order of their numbers, and the largest number that the table
ever held, at least zero. -/
structure RowTable where
  rows : List Row
  top : Int

namespace RowTable

/-- A new table. -/
def empty : RowTable := ⟨[], 0⟩

/-- The largest number that a row can have. -/
def largestId : Int := signedBound - 1

/-- Whether some row holds the subnet. -/
def holds (t : RowTable) (subnet : Subnet) : Bool := t.rows.any (·.holds subnet)

/-- Puts a row in its place. -/
def place (r : Row) : List Row → List Row
  | [] => [r]
  | s :: rows => if r.id < s.id then r :: s :: rows else s :: place r rows

/-- Adds a row. -/
def insert (t : RowTable) (r : Row) : RowTable := ⟨place r t.rows, max t.top r.id⟩

/-- Removes the rows that hold a subnet. -/
def erase (t : RowTable) (subnet : Subnet) : RowTable :=
  { t with rows := t.rows.filter (!·.holds subnet) }

/-- Adds a row as it is, under the next number if it has none; nothing if the number or the pair is
taken, or if there is no next number. -/
def insertRaw? (t : RowTable) (id : Option Int) (ip mask : Cell) : Option RowTable :=
  let n := id.getD (t.top + 1)
  let r : Row := ⟨n, ip, mask⟩
  if largestId < n ∨ t.rows.any fun s => s.id = n || s.samePair r then none
  else some (t.insert r)

end RowTable

/-- The tables of both lists, where they exist, and whether the connection is closed. -/
structure Database where
  allow : Option RowTable
  deny : Option RowTable
  closed : Bool

/-- Why the database could not do what it was asked. -/
inductive Outage where
  | closed
  | noTable (list : AccessList)
  | full
deriving DecidableEq

/-- The message of an outage. -/
def Outage.message : Outage → String
  | closed => "attempted to acquire a connection on a closed pool"
  | noTable list => "error returned from database: (code: 1) no such table: " ++ tableName list
  | full => "error returned from database: (code: 13) database or disk is full"

/-- Why a request to the database failed. -/
inductive DatabaseError where
  | outage (cause : Outage)
  | refused (error : StoreError)
deriving DecidableEq

/-- The error of a failed request as a store reports it. -/
def DatabaseError.toStoreError : DatabaseError → StoreError
  | outage cause => .unavailable cause.message
  | refused error => error

namespace Database

/-- A new database. -/
def empty : Database := ⟨some .empty, some .empty, false⟩

/-- The table of a list, if it exists. -/
def table? (db : Database) : AccessList → Option RowTable
  | .allow => db.allow
  | .deny => db.deny

/-- Replaces the table of a list. -/
def setTable (db : Database) (t : Option RowTable) : AccessList → Database
  | .allow => { db with allow := t }
  | .deny => { db with deny := t }

/-- The table of a list, over an open connection. -/
def openTable (db : Database) (list : AccessList) : Except DatabaseError RowTable :=
  if db.closed then .error (.outage .closed)
  else
    match db.table? list with
    | none => .error (.outage (.noTable list))
    | some t => .ok t

/-- Writes a row for a pair into the table of a list unless either list holds it, and tells the
number of the row. Both tables are needed, the list's own first. -/
def insertUnlessHeld (db : Database) (list : AccessList) (subnet : Subnet) :
    Except DatabaseError (Option Int × Database) := do
  let t ← db.openTable list
  let allow ← db.openTable .allow
  let deny ← db.openTable .deny
  if allow.holds subnet || deny.holds subnet then return (none, db)
  let id := t.top + 1
  if RowTable.largestId < id then throw (.outage .full)
  return (some id, db.setTable (some (t.insert (.ofSubnet id subnet))) list)

/-- Which list holds a pair, the allow list before the deny list. -/
def holder? (db : Database) (subnet : Subnet) : Except DatabaseError (Option AccessList) := do
  let allow ← db.openTable .allow
  let deny ← db.openTable .deny
  if allow.holds subnet then return some .allow
  if deny.holds subnet then return some .deny
  return none

/-- The message for a pair that was not written although no list holds it. -/
def unheldMessage (subnet : Subnet) : String :=
  "insert of " ++ subnet.text ++ " rejected but no list holds it"

/-- The message for a row that was written under a negative number. -/
def negativeMessage (subnet : Subnet) : String := "negative rowid for " ++ subnet.text

/-- Adds a pair to a list, unless a list holds it. A refused pair changes nothing and is looked up
for the list to be named. -/
def add (db : Database) (list : AccessList) (subnet : Subnet) :
    Except DatabaseError (UInt64 × Database) := do
  match ← db.insertUnlessHeld list subnet with
  | (none, _) =>
    match ← db.holder? subnet with
    | some holder => throw (.refused (.conflict holder subnet))
    | none => throw (.refused (.corrupt (unheldMessage subnet)))
  | (some id, db') =>
    if id < 0 then throw (.refused (.corrupt (negativeMessage subnet)))
    return (UInt64.ofNat id.toNat, db')

/-- Removes a pair from a list that holds it. -/
def remove (db : Database) (list : AccessList) (subnet : Subnet) :
    Except DatabaseError (Unit × Database) := do
  let t ← db.openTable list
  if !t.holds subnet then throw (.refused (.notFound list subnet))
  return ((), db.setTable (some (t.erase subnet)) list)

/-- Whether a list holds exactly this pair. -/
def contains (db : Database) (list : AccessList) (subnet : Subnet) :
    Except DatabaseError (Bool × Database) := do
  let t ← db.openTable list
  return (t.holds subnet, db)

/-- The entries of a list in the order of their numbers. -/
def enumerate (db : Database) (list : AccessList) :
    Except DatabaseError (List Entry × Database) := do
  let t ← db.openTable list
  match t.rows.mapM (Row.entry list) with
  | .ok entries => return (entries, db)
  | .error text => throw (.refused (.corrupt text))

/-- Connects anew and creates the tables that are missing. -/
def reattach (db : Database) : Except DatabaseError Database :=
  if db.closed then .error (.outage .closed)
  else .ok { db with allow := some (db.allow.getD .empty), deny := some (db.deny.getD .empty) }

/-- Adds a row as it is to the table of a list, if that can be. -/
def insertRaw? (db : Database) (list : AccessList) (id : Option Int) (ip mask : Cell) :
    Option Database :=
  match (db.table? list).bind (·.insertRaw? id ip mask) with
  | some t => some (db.setTable (some t) list)
  | none => none

end Database

end LoginAdmission.Storage
