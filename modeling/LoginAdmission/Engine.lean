/-
  The operations on attempts, lists and counters, as procedures.

  `evaluate` decides an attempt: the deny list first, then the allow list, then the counts of the
  login, the password and the address. It stops at the first thing that decides or fails, so a
  later counter is touched only when all earlier checks let the attempt pass. Input is looked at
  before any store is asked.
-/
import LoginAdmission.Procedure

namespace LoginAdmission.Engine

open Procedure

/-- Counts a value and holds the count against its limit. -/
def check (limits : Thresholds) (d : Dimension) (value : String) :
    Procedure (Except StoreError RateCheck) :=
  ask (.increment (d.key value)) fun
    | .error e => done (.error e)
    | .ok count =>
      let result : RateCheck := ⟨count, limits.limit d⟩
      if result.within then done (.ok result)
      else note (.thresholdExceeded d result) (done (.ok result))

/-- Checks the dimensions one after the other, up to the first that is over its limit. -/
def decideByRates (limits : Thresholds) :
    List (Dimension × String) → Procedure (Except Failure Decision)
  | [] => done (.ok ⟨true, .passed⟩)
  | (d, value) :: rest => (check limits d value).bind fun
    | .error e => done (.error (.ofStore e))
    | .ok result =>
      if result.within then decideByRates limits rest else done (.ok ⟨false, d.reason⟩)

/-- Whether a list covers an address. -/
def covers (list : AccessList) (address : Address) : Procedure (Except Failure Bool) :=
  query (.enumerate list) fun entries => done (.ok (Entry.covers address entries))

/-- Decides a valid attempt from `address`. -/
def decide (limits : Thresholds) (attempt : Attempt) (address : Address) :
    Procedure (Except Failure Decision) :=
  (covers .deny address).bind fun
  | .error e => done (.error e)
  | .ok true => done (.ok ⟨false, .denylisted⟩)
  | .ok false => (covers .allow address).bind fun
    | .error e => done (.error e)
    | .ok true => done (.ok ⟨true, .allowlisted⟩)
    | .ok false => decideByRates limits attempt.dimensions

/-- Writes down and announces how an evaluation ended. -/
def reportEvaluation (attempt : Attempt) :
    Except Failure Decision → Procedure (Except Failure Decision)
  | .error e => note (.evaluationFailed attempt.address e) (done (.error e))
  | .ok d => note (.evaluated attempt.address d) (announce (.evaluated d) (done (.ok d)))

/-- Decides an attempt. -/
def evaluate (limits : Thresholds) (attempt : Attempt) : Procedure (Except Failure Decision) :=
  match attempt.validate with
  | .error e => done (.error (.invalid e))
  | .ok address => (decide limits attempt address).bind (reportEvaluation attempt)

/-- Goes on with valid input, or fails before anything is asked. -/
def withInput {α β : Type} (input : Except InvalidInput α)
    (next : α → Procedure (Except Failure β)) : Procedure (Except Failure β) :=
  match input with
  | .error e => done (.error (.invalid e))
  | .ok a => next a

/-- Whether a list covers the address of this text. -/
def inList (list : AccessList) (address : String) : Procedure (Except Failure Bool) :=
  withInput (Address.parse address) (covers list)

/-- Puts a pair on a list and gives the number of its entry. -/
def add (list : AccessList) (ip : String) (mask : UInt8) : Procedure (Except Failure UInt64) :=
  withInput (Subnet.make ip mask) fun subnet =>
    ask (.add list subnet) fun
      | .error e => note (.addFailed list subnet e) (done (.error (.ofStore e)))
      | .ok id => note (.added list subnet id) (announce (.added list subnet id) (done (.ok id)))

/-- Takes a pair off a list. -/
def remove (list : AccessList) (ip : String) (mask : UInt8) : Procedure (Except Failure Unit) :=
  withInput (Subnet.make ip mask) fun subnet =>
    ask (.remove list subnet) fun
      | .error e => note (.removeFailed list subnet e) (done (.error (.ofStore e)))
      | .ok _ => note (.removed list subnet) (announce (.removed list subnet) (done (.ok ())))

/-- Whether a list holds exactly this pair. -/
def listed (list : AccessList) (ip : String) (mask : UInt8) : Procedure (Except Failure Bool) :=
  withInput (Subnet.make ip mask) fun subnet =>
    query (.contains list subnet) fun held => done (.ok held)

/-- All entries of a list, in the order of their numbers. -/
def listAll (list : AccessList) : Procedure (Except Failure (List Entry)) :=
  query (.enumerate list) fun entries => done (.ok entries)

/-- Sets the counter of a value back to zero. -/
def resetKey (d : Dimension) (value : String) : Procedure (Except Failure Unit) :=
  ask (.set (d.key value) 0) fun
    | .error e => note (.counterResetFailed d e) (done (.error (.ofStore e)))
    | .ok _ => note (.counterReset d) (announce (.counterReset d) (done (.ok ())))

/-- Sets the counter of a login back to zero. -/
def resetLogin (login : String) : Procedure (Except Failure Unit) :=
  withInput (if login.isEmpty then .error .emptyLogin else .ok login) (resetKey .login)

/-- Sets the counter of an address back to zero. -/
def resetAddress (address : String) : Procedure (Except Failure Unit) :=
  withInput (Address.parse address) fun _ => resetKey .address address

/-- Forgets all counters. -/
def flush : Procedure (Except StoreError Unit) :=
  ask .flush fun
    | .error e => note (.flushFailed e) (announce .flushFailed (done (.error e)))
    | .ok _ => note .countersFlushed (announce .countersFlushed (done (.ok ())))

/-- Forgets all counters on an operator's word. -/
def flushCounters : Procedure (Except Failure Unit) :=
  flush.map fun
    | .ok _ => .ok ()
    | .error e => .error (.ofStore e)

end LoginAdmission.Engine
