/-
  Access lists held in memory.

  Each list is a table of entries, with the last number given out. They are put in the order of
  their numbers when they are enumerated. A pair may be on one of the two lists only. A refused
  edit changes nothing, so numbers are neither skipped nor used twice.
-/
import LoginAdmission.Failure

namespace LoginAdmission.Storage

/-- One list: its entries, and the last number given out. -/
structure Table where
  lastId : UInt64
  entries : List Entry

namespace Table

/-- No entry yet. -/
def empty : Table := ⟨0, []⟩

/-- Whether the table holds exactly this pair. -/
def holds (t : Table) (subnet : Subnet) : Bool := t.entries.any (·.subnet = subnet)

/-- Adds a pair under the next number. -/
def insert (t : Table) (subnet : Subnet) : Table :=
  let id := t.lastId + 1
  ⟨id, t.entries ++ [⟨id, subnet⟩]⟩

/-- Takes a pair out. -/
def erase (t : Table) (subnet : Subnet) : Table :=
  { t with entries := t.entries.filter (·.subnet ≠ subnet) }

end Table

/-- Both lists. -/
structure Memory where
  allow : Table
  deny : Table

namespace Memory

/-- Two empty lists. -/
def empty : Memory := ⟨.empty, .empty⟩

/-- The table of a list. -/
def table (m : Memory) : AccessList → Table
  | .allow => m.allow
  | .deny => m.deny

/-- Replaces the table of a list. -/
def setTable (m : Memory) (t : Table) : AccessList → Memory
  | .allow => { m with allow := t }
  | .deny => { m with deny := t }

/-- Which list holds a pair; of two, the one that is asked for. -/
def holder? (m : Memory) (list : AccessList) (subnet : Subnet) : Option AccessList :=
  if (m.table list).holds subnet then some list
  else if (m.table list.opposite).holds subnet then some list.opposite
  else none

/-- Adds a pair to a list, unless a list holds it. -/
def add (m : Memory) (list : AccessList) (subnet : Subnet) : Except StoreError UInt64 × Memory :=
  match m.holder? list subnet with
  | some holder => (.error (.conflict holder subnet), m)
  | none =>
    let t := (m.table list).insert subnet
    (.ok t.lastId, m.setTable t list)

/-- Removes a pair from a list that holds it. -/
def remove (m : Memory) (list : AccessList) (subnet : Subnet) : Except StoreError Unit × Memory :=
  if (m.table list).holds subnet then (.ok (), m.setTable ((m.table list).erase subnet) list)
  else (.error (.notFound list subnet), m)

/-- Whether a list holds exactly this pair. -/
def contains (m : Memory) (list : AccessList) (subnet : Subnet) : Bool :=
  (m.table list).holds subnet

/-- The entries of a list in the order of their numbers. -/
def enumerate (m : Memory) (list : AccessList) : List Entry :=
  (m.table list).entries.mergeSort fun a b => a.id ≤ b.id

end Memory

end LoginAdmission.Storage
