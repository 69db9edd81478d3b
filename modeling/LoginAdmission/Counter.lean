/-
  Counted attempts: what is counted, the limits, and the counters themselves.

  A counter's key names its dimension and the value counted, as `dimension:value`. Counts are
  64-bit words that stop at their largest value. A counter nobody wrote reads as zero; one that was
  set to zero still counts as tracked until a flush.
-/
import LoginAdmission.Text.Digits
import LoginAdmission.Width

namespace LoginAdmission

/-- What an attempt is counted by. -/
inductive Dimension where
  | login
  | password
  | address
deriving DecidableEq

namespace Dimension

/-- The name of a dimension. -/
def name : Dimension → String
  | login => "login"
  | password => "password"
  | address => "address"

/-- The key of the counter of a value. -/
def key (d : Dimension) (value : String) : String := d.name ++ ":" ++ value

end Dimension

/-- The largest count within the limit, for each dimension. -/
structure Thresholds where
  login : UInt64
  password : UInt64
  address : UInt64
deriving DecidableEq

namespace Thresholds

/-- The limits that hold when none are configured. -/
def standard : Thresholds := ⟨10, 100, 1000⟩

/-- The limit of one dimension. -/
def limit (t : Thresholds) : Dimension → UInt64
  | .login => t.login
  | .password => t.password
  | .address => t.address

end Thresholds

/-- The count a check arrived at, and the limit it was held against. -/
structure RateCheck where
  count : UInt64
  limit : UInt64
deriving DecidableEq

/-- A count up to the limit is within it. -/
def RateCheck.within (c : RateCheck) : Bool := c.count ≤ c.limit

/-- One more, or the largest count again. -/
def saturatingSucc (n : UInt64) : UInt64 := if n.toNat + 1 < wordBound then n + 1 else n

/-- The counters that were written since the last flush, each key once. -/
structure Counters where
  cells : List (String × UInt64)

namespace Counters

/-- No counter written yet. -/
def empty : Counters := ⟨[]⟩

/-- What a counter of the list reads: zero unless it is there. -/
def read (key : String) : List (String × UInt64) → UInt64
  | [] => 0
  | cell :: cells => if cell.1 = key then cell.2 else read key cells

/-- What a counter reads: zero unless it was written. -/
def value (c : Counters) (key : String) : UInt64 := read key c.cells

/-- Replaces the value of a key, or appends the key. -/
def put (key : String) (n : UInt64) : List (String × UInt64) → List (String × UInt64)
  | [] => [(key, n)]
  | cell :: cells => if cell.1 = key then (key, n) :: cells else cell :: put key n cells

/-- Writes a counter. -/
def set (c : Counters) (key : String) (n : UInt64) : Counters := ⟨put key n c.cells⟩

/-- Counts one attempt and gives the new count. -/
def increment (c : Counters) (key : String) : UInt64 × Counters :=
  let n := saturatingSucc (c.value key)
  (n, c.set key n)

/-- The number of counters written since the last flush. -/
def tracked (c : Counters) : Nat := c.cells.length

theorem read_put (key other : String) (n : UInt64) (cells : List (String × UInt64)) :
    read other (put key n cells) = if key = other then n else read other cells := by
  induction cells with
  | nil => simp [put, read]
  | cons cell cells ih =>
    by_cases hk : cell.1 = key
    · by_cases ho : key = other <;> simp [put, read, hk, ho]
    · by_cases ho : cell.1 = other
      · have : key ≠ other := fun h => hk (ho.trans h.symm)
        simp only [put, if_neg hk, read, if_pos ho, if_neg this]
      · simp only [put, if_neg hk, read, if_neg ho, ih]

theorem value_set (c : Counters) (key other : String) (n : UInt64) :
    (c.set key n).value other = if key = other then n else c.value other :=
  read_put key other n c.cells

end Counters

end LoginAdmission
