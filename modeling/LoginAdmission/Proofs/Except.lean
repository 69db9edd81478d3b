/-
  Computations that may fail, taken apart.

  One that goes on from another succeeds when both do, and one that goes through a list when it does
  so at each item. Main statements: `exists_of_bind` and `mapM_eq_ok_iff`.
-/
import Mathlib.Data.List.Forall2

namespace LoginAdmission

variable {ε α β : Type}

/-- A first step and what goes on from it succeed when both do. -/
theorem exists_of_bind {x : Except ε α} {f : α → Except ε β} {b : β} (h : x >>= f = .ok b) :
    ∃ a, x = .ok a ∧ f a = .ok b := by
  cases x with
  | error e => cases h
  | ok a => exact ⟨a, rfl, h⟩

theorem exists_of_map {x : Except ε α} {f : α → β} {b : β} (h : x.map f = .ok b) :
    ∃ a, x = .ok a ∧ f a = b := by
  cases x with
  | error e => cases h
  | ok a => exact ⟨a, rfl, Except.ok.inj h⟩

theorem mapError_ok {δ : Type} (f : ε → δ) (a : α) :
    (Except.ok a : Except ε α).mapError f = .ok a := rfl

theorem mapError_error {δ : Type} (f : ε → δ) (e : ε) :
    (Except.error e : Except ε α).mapError f = .error (f e) := rfl

theorem toOption_of_mapError {δ : Type} {x : Except ε α} {f : ε → δ} {a : α}
    (h : x.mapError f = .ok a) : x.toOption = some a := by
  cases x with
  | ok a' => exact congrArg some (Except.ok.inj h)
  | error e => cases h

/-! ## Item by item -/

variable {f : α → Except ε β} {as as' : List α} {bs bs' : List β}

/-- The items of a list are read when each of them is, in its place. -/
theorem mapM_eq_ok_iff : as.mapM f = .ok bs ↔ List.Forall₂ (fun a b => f a = .ok b) as bs := by
  induction as generalizing bs with
  | nil =>
    rw [List.forall₂_nil_left_iff]
    exact ⟨fun h => (Except.ok.inj h).symm, fun h => h ▸ rfl⟩
  | cons a as ih =>
    rw [List.forall₂_cons_left_iff, List.mapM_cons]
    cases ha : f a with
    | error e => exact iff_of_false nofun nofun
    | ok b =>
      simp only [← ih, Except.ok.injEq, Bind.bind, Except.bind]
      cases as.mapM f with
      | error e => exact iff_of_false nofun nofun
      | ok read =>
        constructor
        · rintro ⟨rfl⟩
          exact ⟨b, read, rfl, rfl, rfl⟩
        · rintro ⟨b', read', rfl, ⟨rfl⟩, rfl⟩
          rfl

theorem exists_mapM_iff : (∃ bs, as.mapM f = .ok bs) ↔ ∀ a ∈ as, ∃ b, f a = .ok b := by
  simp only [mapM_eq_ok_iff]
  induction as with
  | nil => simp
  | cons a as ih =>
    rw [List.forall_mem_cons, ← ih]
    constructor
    · rintro ⟨_, hb | ⟨hb, hbs⟩⟩
      exact ⟨⟨_, hb⟩, _, hbs⟩
    · rintro ⟨⟨b, hb⟩, bs, hbs⟩
      exact ⟨b :: bs, .cons hb hbs⟩

/-- What is read was read from one of the items. -/
theorem exists_item (h : as.mapM f = .ok bs) : ∀ b ∈ bs, ∃ a ∈ as, f a = .ok b := by
  have hall := mapM_eq_ok_iff.mp h
  clear h
  induction hall with
  | nil => nofun
  | @cons a b as bs hb _ ih =>
    refine List.forall_mem_cons.mpr ⟨⟨a, List.mem_cons_self, hb⟩, fun b' hb' => ?_⟩
    obtain ⟨a', ha', hread⟩ := ih b' hb'
    exact ⟨a', List.mem_cons_of_mem a ha', hread⟩

theorem mem_read (h : as.mapM f = .ok bs) {a : α} (ha : a ∈ as) {b : β} (hb : f a = .ok b) :
    b ∈ bs := by
  have hall := mapM_eq_ok_iff.mp h
  clear h
  induction hall with
  | nil => cases ha
  | cons hread _ ih =>
    rcases List.mem_cons.mp ha with rfl | ha
    · rw [Except.ok.inj (hb.symm.trans hread)]
      exact List.mem_cons_self
    · exact List.mem_cons_of_mem _ (ih ha)

/-- More items make more of what is read. -/
theorem read_subset (h : as.mapM f = .ok bs) (h' : as'.mapM f = .ok bs') (hsub : as ⊆ as') :
    bs ⊆ bs' := by
  intro b hb
  obtain ⟨a, ha, hread⟩ := exists_item h b hb
  exact mem_read h' (hsub ha) hread

end LoginAdmission
