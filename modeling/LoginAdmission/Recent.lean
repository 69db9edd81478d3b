/-
  Bounded logs: the newest entries of a growing sequence.

  A log of capacity `n` holds the last `n` entries that came in since it was cleared, oldest first.
  The capacity is at least one. An entry comes in by `push`, which makes room first, or by `append`,
  which drops the oldest entry afterwards; both leave the same log.
-/

namespace LoginAdmission

/-- The newest entries of a sequence, oldest first, at most `capacity` of them. -/
structure Recent (α : Type) where
  capacity : Nat
  items : List α
  capacity_pos : 0 < capacity

namespace Recent

variable {α : Type}

/-- An empty log with room for `capacity` entries, or for one if that is none. -/
def ofCapacity (capacity : Nat) : Recent α := ⟨max capacity 1, [], by omega⟩

/-- Whether the next entry pushes the oldest one out. -/
def isFull (r : Recent α) : Bool := r.capacity ≤ r.items.length

/-- Appends an entry; a full log loses its oldest one. -/
def push (r : Recent α) (a : α) : Recent α :=
  { r with items := (if r.isFull then r.items.drop 1 else r.items) ++ [a] }

/-- Appends an entry, and drops the oldest one if there are now more than the log has room for. -/
def append (r : Recent α) (a : α) : Recent α :=
  let items := r.items ++ [a]
  { r with items := if r.capacity < items.length then items.drop 1 else items }

/-- Drops all entries. -/
def clear (r : Recent α) : Recent α := { r with items := [] }

theorem isFull_iff {r : Recent α} : r.isFull = true ↔ r.capacity ≤ r.items.length :=
  decide_eq_true_iff

/-- It makes no difference whether room is made before an entry comes in or after it. -/
theorem append_eq_push (r : Recent α) (a : α) : r.append a = r.push a := by
  have hpos := r.capacity_pos
  simp only [append, push, List.length_append, List.length_singleton]
  by_cases hfull : r.isFull = true
  · have hlength := isFull_iff.mp hfull
    have hdrop : (r.items ++ [a]).drop 1 = r.items.drop 1 ++ [a] :=
      List.drop_append_of_le_length (by omega)
    rw [if_pos hfull, if_pos (by omega), hdrop]
  · have hlength := mt isFull_iff.mpr hfull
    rw [if_neg hfull, if_neg (by omega)]

end Recent

end LoginAdmission
