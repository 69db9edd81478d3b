/-
  Subnets that are read from JSON texts.

  A subnet stands in a text as an object or an array of an address and a number. `Json.Bears j s`
  says that such a pair, with a mask for its number, stands at `j` or anywhere inside it. Whatever
  is read holds only subnets that the value bears: a subnet by itself, one in an entry, in a list of
  entries, below a tag, or in a record around that.

  Main statements: `Wire.vets_of_draws` for whole texts, and `Subnet.read_of_fault`.
-/
import LoginAdmission.Proofs.Json.Members
import LoginAdmission.Proofs.Provenance.Masks
import LoginAdmission.Proofs.Provenance.Mentions
import LoginAdmission.Wire.Outcome

namespace LoginAdmission

open Mentions (subnets)

namespace Json

/-- The values that stand in a value, one level down. -/
def children : Json → List Json
  | array items _ => items
  | object members _ => members.map Prod.snd
  | _ => []

/-- A value, and the values that stand inside it at any depth. -/
inductive Part : Json → Json → Prop
  | self (j : Json) : Part j j
  | inside {part child j : Json} (h : Part part child) (hchild : child ∈ j.children) : Part part j

/-- A pair of an address and a number that the subnet is made of stands at the value or inside
it. -/
def Bears (j : Json) (s : Subnet) : Prop :=
  ∃ part source ip, ∃ mask : UInt8, Part part j ∧
    Subnet.layout.read source part = .ok (ip, mask) ∧ s.MadeOf ip.text mask.toNat

/-- One of the values bears the subnet. -/
def Among (js : List Json) (s : Subnet) : Prop := ∃ j ∈ js, j.Bears s

/-- What is read of a value holds only subnets that the value bears. -/
def Draws {α : Type} [Mentions α] (read : Json → Reading α) : Prop :=
  ∀ j a, read j = .ok a → Only j.Bears a

/-- What is read of a value holds only subnets that stand inside it. -/
def DrawsInside {α : Type} [Mentions α] (read : Json → Reading α) : Prop :=
  ∀ j a, read j = .ok a → Only (Among j.children) a

theorem bears_of_among {j : Json} {s : Subnet} (h : Among j.children s) : j.Bears s := by
  obtain ⟨child, hchild, part, source, ip, mask, hpart, hpair⟩ := h
  exact ⟨part, source, ip, mask, hpart.inside hchild, hpair⟩

theorem Among.mono {js js' : List Json} {s : Subnet} (h : Among js s) (hsub : js ⊆ js') :
    Among js' s := by
  obtain ⟨j, hj, hbears⟩ := h
  exact ⟨j, hsub hj, hbears⟩

variable {α : Type} [Mentions α] {read : Json → Reading α} {source : Source}

theorem DrawsInside.draws (h : DrawsInside read) : Draws read :=
  fun j a hread => (h j a hread).mono fun _ => bears_of_among

theorem drawsInside_of_nil (h : ∀ a : α, subnets a = []) : DrawsInside read :=
  fun _ a _ => only_of_nil (h a)

/-- A variant without fields is one value. -/
theorem drawsInside_readEmpty {value : α} (h : subnets value = []) :
    DrawsInside (readEmpty value) := by
  intro j a hread
  have heq : a = value := by
    unfold readEmpty at hread
    split at hread
    · cases hread
    · exact (Except.ok.inj hread).symm
  exact only_of_nil (heq ▸ h)

/-! ## Arrays -/

theorem drawsInside_items (h : Draws read) : DrawsInside (readItems read) := by
  intro j values hread
  unfold readItems at hread
  split at hread
  · next items closed =>
    obtain ⟨values', hitems, hread⟩ := exists_of_bind hread
    cases closed with
    | false => cases hread
    | true =>
      obtain rfl := Except.ok.inj hread
      refine only_list.mpr fun a ha => ?_
      obtain ⟨item, hitem, hread⟩ := exists_item hitems a ha
      exact (h item a hread).mono fun s hs => ⟨item, hitem, hs⟩
  · exact absurd hread (unexpected_ne_ok _ _ _)

/-! ## Structures -/

/-- The values that the fields of a structure are read from. -/
def Fields.values : Fields → List Json
  | named members => members.map Prod.snd
  | placed items _ _ => items

/-- What is read of a field holds only subnets that its value bears. -/
theorem Fields.only_get {f : Fields} {place : Nat} {name : String} {a : α}
    (hread : Draws read) (h : f.get place name read = .ok a) : Only (Among f.values) a := by
  unfold get at h
  split at h
  · next j hj =>
    have hmem : j ∈ f.values := by
      cases f with
      | named members => exact List.mem_map_of_mem (f := Prod.snd) (mem_of_lookup (β := Json) hj)
      | placed items closed expected => exact List.mem_of_getElem? hj
    exact (hread j a h).mono fun s hs => ⟨j, hmem, hs⟩
  · cases h

/-- A structure that is built of what its fields bear. -/
theorem Layout.drawsInside {l : Layout α}
    (h : ∀ f a, l.build f = .ok a → Only (Among f.values) a) (source : Source) :
    DrawsInside (l.read source) := by
  intro j a hread
  unfold read at hread
  split at hread
  · next members closed =>
    obtain ⟨_, -, hread⟩ := exists_of_bind hread
    cases closed with
    | false => cases hread
    | true => exact h (.named members) a hread
  · next items closed =>
    obtain ⟨a', hbuild, hread⟩ := exists_of_bind hread
    have heq : a' = a := by
      split at hread
      · cases hread
      · split at hread
        · cases hread
        · exact Except.ok.inj hread
    subst heq
    exact h (.placed items closed _) a' hbuild
  · exact absurd hread (unexpected_ne_ok _ _ _)

/-! ## Tagged choices -/

namespace Tagged

variable {t : Tagged α}

/-- A tagged choice holds what its variant holds. -/
theorem drawsInside (h : ∀ p ∈ t.variants, DrawsInside p.2) (source : Source) :
    DrawsInside (t.read source) := by
  intro j a hread
  unfold read at hread
  split at hread
  · next members closed =>
    obtain ⟨v, hscan, hread⟩ := exists_of_bind hread
    cases closed with
    | false => cases hread
    | true =>
      cases v with
      | none => cases hread
      | some v =>
        obtain ⟨⟨tag, -, htag⟩, -⟩ := scan_none_eq_ok_iff.mp hscan
        obtain ⟨name, hname⟩ := exists_of_readTag htag
        refine (h _ hname _ a hread).mono fun s hs => hs.mono ?_
        exact List.map_subset _ List.filter_sublist.subset
  · split at hread <;> cases hread
  · next first items closed =>
    obtain ⟨v, htag, hread⟩ := exists_of_bind hread
    obtain ⟨name, hname⟩ := exists_of_readTag htag
    split at hread
    · refine (h _ hname _ a hread).mono fun s hs => hs.mono ?_
      exact List.subset_cons_self _ _
    · cases hread
  · exact absurd hread (unexpected_ne_ok _ _ _)

end Tagged

end Json

/-! ## Subnets, and the values that hold them -/

open Json (Source Draws DrawsInside Fields)

namespace Subnet

/-- A pair is read as a subnet when its number is a mask. -/
theorem read_of_pair {source : Source} {j : Json} {s : Subnet}
    (h : Wire.read source j = .ok s) : ∃ ip mask, layout.read source j = .ok (ip, mask) ∧
      s.MadeOf ip.text mask.toNat := by
  obtain ⟨⟨ip, mask⟩, hpair, h⟩ := exists_of_bind h
  refine ⟨ip, mask, hpair, ?_⟩
  dsimp only at h
  cases hmake : ofMask ip mask.toNat with
  | ok s' =>
    rw [hmake] at h
    obtain rfl := Except.ok.inj h
    obtain ⟨hmask, rfl, hnumber⟩ := ofMask_eq_ok_iff.mp hmake
    exact ⟨hmask, rfl, hnumber⟩
  | error e =>
    rw [hmake] at h
    cases h

/-- A pair whose number is no mask is refused with what is wrong with it. -/
theorem read_of_fault {source : Source} {j : Json} {ip : Address} {mask : UInt8} {e : InvalidInput}
    (hpair : layout.read source j = .ok (ip, mask)) (he : MaskFault mask.toNat e) :
    Wire.read (α := Subnet) source j = Json.refuse (.refused e.message) := by
  show (layout.read source j >>= _) = _
  rw [hpair]
  simp only [Bind.bind, Except.bind, ofMask_eq_error_iff.mpr he]

theorem draws_read (source : Source) : Draws (Wire.read (α := Subnet) source) := by
  intro j s hread
  obtain ⟨ip, mask, hpair, hmade⟩ := read_of_pair hread
  exact only_subnet.mpr ⟨j, source, ip, mask, .self j, hpair, hmade⟩

end Subnet

theorem Entry.drawsInside_read (source : Source) :
    DrawsInside (Wire.read (α := Entry) source) := by
  refine Json.Layout.drawsInside (fun f e hbuild => ?_) source
  obtain ⟨subnet, hsubnet, hbuild⟩ := exists_of_bind hbuild
  obtain ⟨id, -, hbuild⟩ := exists_of_bind hbuild
  obtain rfl := Except.ok.inj hbuild
  have hdrawn : Only (Json.Among f.values) subnet := f.only_get (Subnet.draws_read source) hsubnet
  exact hdrawn

namespace Outcome

variable {α : Type} [Mentions α] [Wire α]

/-- The one field of a variant holds what the outcome holds. -/
theorem drawsInside_variant {variant field : String} {make : α → Outcome}
    (hread : Draws (Wire.read (α := α) .buffered))
    (hmake : ∀ a, (make a).subnets = Mentions.subnets a) :
    DrawsInside (layout variant field make).variant := by
  refine Json.Layout.drawsInside (fun f outcome hbuild => ?_) .buffered
  obtain ⟨a, hfield, hbuild⟩ := exists_of_bind hbuild
  obtain rfl := Except.ok.inj hbuild
  intro s hs
  exact f.only_get hread hfield s (hmake a ▸ hs)

theorem drawsInside_read (source : Source) : DrawsInside (Wire.read (α := Outcome) source) := by
  have hplain : ∀ {α : Type} [Mentions α] {read : Json → Json.Reading α},
      (∀ a : α, Mentions.subnets a = []) → Draws read := fun h => (Json.drawsInside_of_nil h).draws
  refine Json.Tagged.drawsInside ?_ source
  simp only [tagged, List.forall_mem_cons]
  refine ⟨?_, ?_, ?_, ?_, ?_, ?_, nofun⟩
  · exact Json.drawsInside_readEmpty rfl
  · exact drawsInside_variant (hplain fun _ => rfl) fun _ => rfl
  · exact drawsInside_variant (hplain fun _ => rfl) fun _ => rfl
  · exact drawsInside_variant (hplain fun _ => rfl) fun _ => rfl
  · exact drawsInside_variant (Json.drawsInside_items (Entry.drawsInside_read _).draws).draws
      fun _ => rfl
  · exact drawsInside_variant (hplain fun _ => rfl) fun _ => rfl

end Outcome

theorem HistoryRecord.drawsInside_read (source : Source) :
    DrawsInside (Wire.read (α := HistoryRecord) source) := by
  refine Json.Layout.drawsInside (fun f r hbuild => ?_) source
  obtain ⟨ticket, -, hbuild⟩ := exists_of_bind hbuild
  obtain ⟨label, -, hbuild⟩ := exists_of_bind hbuild
  obtain ⟨outcome, houtcome, hbuild⟩ := exists_of_bind hbuild
  obtain rfl := Except.ok.inj hbuild
  have hdrawn : Only (Json.Among f.values) outcome :=
    f.only_get (Outcome.drawsInside_read .direct).draws houtcome
  exact hdrawn

/-! ## Whole texts -/

/-- Whole texts are read as values that hold only subnets whose pairs stand in the text. -/
def Wire.Vets (α : Type) [Wire α] [Mentions α] : Prop :=
  ∀ text (a : α), Wire.ofText text = .ok a → Only (JsonText.read text).value.Bears a

theorem Wire.vets_of_draws {α : Type} [Wire α] [Mentions α]
    (h : Draws (Wire.read (α := α) .direct)) : Wire.Vets α := by
  intro text a hread
  unfold ofText at hread
  split at hread
  · next a' hvalue =>
    split at hread
    · obtain rfl := Except.ok.inj hread
      exact h _ _ hvalue
    · cases hread
  · cases hread

end LoginAdmission
