/-
  Histories of the access lists: what a sequence of calls says about a pair.

  `Stands` says that a pair is on a list by the calls that were made, and under which number: the
  last successful edit of the pair on that list put it there. `additions` counts the successful
  additions to a list. Both are read off the calls and their answers and know nothing of how a
  store keeps its lists.

  `ListStore.calls` is the run of a list store: each request with the answer it got.
-/
import LoginAdmission.Stores

namespace LoginAdmission

/-! ## Calls on a list store -/

/-- What a list store can be asked. -/
inductive ListRequest where
  | add (list : AccessList) (subnet : Subnet)
  | remove (list : AccessList) (subnet : Subnet)
  | contains (list : AccessList) (subnet : Subnet)
  | enumerate (list : AccessList)
deriving DecidableEq

/-- The request as a procedure makes it. -/
abbrev ListRequest.request : ListRequest → Request
  | add list subnet => .add list subnet
  | remove list subnet => .remove list subnet
  | contains list subnet => .contains list subnet
  | enumerate list => .enumerate list

namespace ListStore

/-- Asks a list store: its answer and what it holds after that. -/
def ask (store : ListStore) (r : ListRequest) : Except StoreError r.request.Reply × ListStore :=
  match r with
  | .add list subnet => let a := store.add list subnet; (a.1, a.2.1)
  | .remove list subnet => let a := store.remove list subnet; (a.1, a.2.1)
  | .contains list subnet => let a := store.contains list subnet; (a.1, a.2.1)
  | .enumerate list => let a := store.enumerate list; (a.1, a.2.1)

/-- The call that a request makes. -/
def call (store : ListStore) (r : ListRequest) : Call := ⟨r.request, (store.ask r).1⟩

/-- The store after a sequence of requests. -/
def afterCalls (store : ListStore) (asked : List ListRequest) : ListStore :=
  asked.foldl (fun s r => (s.ask r).2) store

/-- The calls of a sequence of requests, in order. -/
def calls (store : ListStore) : List ListRequest → List Call
  | [] => []
  | r :: asked => store.call r :: calls (store.ask r).2 asked

end ListStore

/-! ## What the calls say -/

namespace Call

/-- The pair that a call put on a list or took off it. A call that fails edits nothing. -/
def edit? : Call → Option (AccessList × Subnet)
  | ⟨.add list subnet, .ok _⟩ => some (list, subnet)
  | ⟨.remove list subnet, .ok _⟩ => some (list, subnet)
  | _ => none

/-- Whether a call put a pair on the list. -/
def addsTo (list : AccessList) : Call → Bool
  | ⟨.add l _, .ok _⟩ => l = list
  | _ => false

theorem addsTo_eq_false {c : Call} {list : AccessList}
    (h : ∀ subnet, c.edit? ≠ some (list, subnet)) : c.addsTo list = false := by
  unfold addsTo
  split
  · exact decide_eq_false fun hl => h _ (by rw [edit?, hl])
  · rfl

end Call

/-- The number of successful additions to a list. -/
def additions (list : AccessList) (calls : List Call) : Nat := calls.countP (·.addsTo list)

/-- The last successful edit of a pair on a list put it there, under this number. -/
def Stands (calls : List Call) (list : AccessList) (subnet : Subnet) (id : UInt64) : Prop :=
  ∃ before after, calls = before ++ ⟨.add list subnet, .ok id⟩ :: after ∧
    ∀ c ∈ after, c.edit? ≠ some (list, subnet)

theorem additions_snoc (list : AccessList) (calls : List Call) (c : Call) :
    additions list (calls ++ [c]) = additions list calls + (if c.addsTo list then 1 else 0) := by
  unfold additions
  rw [List.countP_append, List.countP_singleton]

theorem additions_le_append (list : AccessList) (calls more : List Call) :
    additions list calls ≤ additions list (calls ++ more) := by
  unfold additions
  rw [List.countP_append]
  exact Nat.le_add_right _ _

/-- A run makes no more additions than requests. -/
theorem ListStore.additions_calls_le (store : ListStore) (asked : List ListRequest)
    (list : AccessList) : additions list (store.calls asked) ≤ asked.length := by
  have hlength : (store.calls asked).length = asked.length := by
    induction asked generalizing store with
    | nil => rfl
    | cons r asked ih => rw [calls, List.length_cons, ih, List.length_cons]
  rw [← hlength]
  exact List.countP_le_length

theorem not_stands_nil (list : AccessList) (subnet : Subnet) (id : UInt64) :
    ¬ Stands [] list subnet id := by
  rintro ⟨before, after, h, -⟩
  exact List.append_ne_nil_of_right_ne_nil before (List.cons_ne_nil _ after) h.symm

/-- A further call puts the pair there itself, or leaves the pair alone. -/
theorem stands_snoc {calls : List Call} {c : Call} {list : AccessList} {subnet : Subnet}
    {id : UInt64} : Stands (calls ++ [c]) list subnet id ↔
      c = ⟨.add list subnet, .ok id⟩ ∨
        c.edit? ≠ some (list, subnet) ∧ Stands calls list subnet id := by
  constructor
  · rintro ⟨before, after, h, hafter⟩
    rcases List.eq_nil_or_concat after with rfl | ⟨init, last, rfl⟩
    · exact Or.inl (List.append_inj_right' h rfl |> List.singleton_inj.mp)
    · rw [List.concat_eq_append, ← List.cons_append, ← List.append_assoc] at h
      obtain ⟨hcalls, hlast⟩ := List.append_inj' h rfl
      rw [List.concat_eq_append] at hafter
      have hc : c = last := List.singleton_inj.mp hlast
      refine Or.inr ⟨hc ▸ hafter last (by simp), before, init, hcalls, fun d hd => ?_⟩
      exact hafter d (List.mem_append_left _ hd)
  · rintro (rfl | ⟨hc, before, after, rfl, hafter⟩)
    · exact ⟨calls, [], rfl, nofun⟩
    · refine ⟨before, after ++ [c], by simp, fun d hd => ?_⟩
      rcases List.mem_append.mp hd with hd | hd
      · exact hafter d hd
      · rw [List.mem_singleton.mp hd]
        exact hc

/-- A call that does not edit the pair leaves it where it is. -/
theorem stands_frame {calls : List Call} {c : Call} {list : AccessList} {subnet : Subnet}
    {id : UInt64} (hc : c.edit? ≠ some (list, subnet)) :
    Stands (calls ++ [c]) list subnet id ↔ Stands calls list subnet id := by
  rw [stands_snoc]
  constructor
  · rintro (rfl | ⟨-, h⟩)
    · exact absurd rfl hc
    · exact h
  · exact fun h => Or.inr ⟨hc, h⟩

end LoginAdmission
