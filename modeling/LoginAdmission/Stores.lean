/-
  The stores behind the operations: the two access lists, the counters, and the faults that are
  laid on them.

  A fault makes every request of its kind fail that concerns a key or list whose name begins the
  way the fault says. The request then does not reach the store. Of several faults the earliest
  wins.
-/
import LoginAdmission.Procedure
import LoginAdmission.Storage.Memory
import LoginAdmission.Storage.Database

namespace LoginAdmission

open Storage

/-- Where the access lists are kept. -/
inductive ListStore where
  | memory (lists : Memory)
  | database (db : Database)

/-- What the store writes down of a failed request: where the database itself failed, the cause. -/
def Storage.DatabaseError.lines : DatabaseError → List LogLine
  | .outage cause => [.databaseFailed cause.message]
  | .refused _ => []

namespace ListStore

/-- Holds a request to a database: its reply and new state, or its error and what is written down
of it. -/
def ofDatabase {α : Type} (db : Database) :
    Except DatabaseError (α × Database) → Except StoreError α × ListStore × List LogLine
  | .ok (reply, db') => (.ok reply, .database db', [])
  | .error e => (.error e.toStoreError, .database db, e.lines)

/-- Adds a pair to a list. -/
def add (list : AccessList) (subnet : Subnet) :
    ListStore → Except StoreError UInt64 × ListStore × List LogLine
  | memory m => let (reply, m') := m.add list subnet; (reply, memory m', [])
  | database db => ofDatabase db (db.add list subnet)

/-- Removes a pair from a list. -/
def remove (list : AccessList) (subnet : Subnet) :
    ListStore → Except StoreError Unit × ListStore × List LogLine
  | memory m => let (reply, m') := m.remove list subnet; (reply, memory m', [])
  | database db => ofDatabase db (db.remove list subnet)

/-- Whether a list holds exactly this pair. -/
def contains (list : AccessList) (subnet : Subnet) :
    ListStore → Except StoreError Bool × ListStore × List LogLine
  | memory m => (.ok (m.contains list subnet), memory m, [])
  | database db => ofDatabase db (db.contains list subnet)

/-- The entries of a list in the order of their numbers. -/
def enumerate (list : AccessList) :
    ListStore → Except StoreError (List Entry) × ListStore × List LogLine
  | memory m => (.ok (m.enumerate list), memory m, [])
  | database db => ofDatabase db (db.enumerate list)

end ListStore

/-- The kinds of requests. -/
inductive RequestKind where
  | enumerate
  | contains
  | add
  | remove
  | increment
  | set
  | flush
deriving DecidableEq

namespace Request

/-- The kind of a request. -/
def kind : Request → RequestKind
  | enumerate _ => .enumerate
  | contains _ _ => .contains
  | add _ _ => .add
  | remove _ _ => .remove
  | increment _ => .increment
  | set _ _ => .set
  | flush => .flush

/-- The name of what a request concerns: a list, a key, or nothing in particular. -/
def subject : Request → String
  | enumerate list | contains list _ | add list _ | remove list _ => list.name
  | increment key | set key _ => key
  | flush => ""

end Request

/-- A failure laid on the stores. -/
structure Fault where
  kind : RequestKind
  start : String
  error : StoreError
deriving DecidableEq

/-- Whether a request runs into the fault. -/
def Fault.hits (f : Fault) (request : Request) : Bool :=
  f.kind = request.kind && f.start.toList.isPrefixOf request.subject.toList

/-- The lists and counters, and the faults laid on them, earliest first. -/
structure Stores where
  lists : ListStore
  counters : Counters
  faults : List Fault

namespace Stores

/-- Replaces the lists once a request to them is answered. -/
def withLists {α : Type} (s : Stores) (answered : Except StoreError α × ListStore × List LogLine) :
    Except StoreError α × Stores × List LogLine :=
  (answered.1, { s with lists := answered.2.1 }, answered.2.2)

/-- Answers a request from the lists and counters. -/
def serve (s : Stores) :
    (request : Request) → Except StoreError request.Reply × Stores × List LogLine
  | .enumerate list => s.withLists (s.lists.enumerate list)
  | .contains list subnet => s.withLists (s.lists.contains list subnet)
  | .add list subnet => s.withLists (s.lists.add list subnet)
  | .remove list subnet => s.withLists (s.lists.remove list subnet)
  | .increment key =>
    let (count, counters) := s.counters.increment key
    (.ok count, { s with counters }, [])
  | .set key value => (.ok (), { s with counters := s.counters.set key value }, [])
  | .flush => (.ok (), { s with counters := .empty }, [])

/-- Answers a request, unless it runs into a fault. -/
def answer (request : Request) (s : Stores) :
    Except StoreError request.Reply × Stores × List LogLine :=
  match s.faults.find? (·.hits request) with
  | some fault => (.error fault.error, s, [])
  | none => s.serve request

end Stores

end LoginAdmission
