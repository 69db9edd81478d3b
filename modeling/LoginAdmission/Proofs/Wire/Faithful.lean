/-
  Forms that lose nothing.

  A form is faithful when its values are written without fault, nested at most `d` deep, and are
  read back both directly and below a tag. Here are the forms of single values, lists and optional
  values, and what makes a structure (`ofLayout`) and a variant of a tagged choice (`read_variant`)
  faithful.
-/
import LoginAdmission.Proofs.Json.Shapes
import LoginAdmission.Wire.Basic

namespace LoginAdmission

open Json (Source Plain Known)

/-- The form of a type loses nothing: its values are written without fault, nested at most `d` deep,
and are read back wherever they stand. -/
structure Faithful (α : Type) [Wire α] (d : Nat) : Prop where
  plain : ∀ a : α, Plain d (Wire.encode a)
  read : ∀ (source : Source) (a : α), Wire.read source (Wire.encode a) = .ok a

namespace Faithful

theorem string : Faithful String 0 := ⟨Plain.string 0, fun _ _ => rfl⟩

theorem bool : Faithful Bool 0 := ⟨Plain.bool 0, fun _ _ => rfl⟩

theorem byte : Faithful UInt8 0 where
  plain n := Plain.nat 0 (Nat.lt_trans n.toNat_lt (by decide))
  read _ n := Json.readByte_nat n

theorem word : Faithful UInt64 0 where
  plain n := Plain.nat 0 (Nat.lt_trans n.toNat_lt (by decide))
  read _ n := Json.readWord_nat n

theorem wide : Faithful (BitVec 128) 0 where
  plain n := Plain.nat 0 n.isLt
  read _ n := Json.readWide_nat n

variable {α : Type} [Wire α] {d : Nat}

theorem list (h : Faithful α d) : Faithful (List α) (d + 1) where
  plain items := by
    refine Plain.list fun item hitem => ?_
    obtain ⟨a, -, rfl⟩ := List.mem_map.mp hitem
    exact h.plain a
  read source items := Json.readItems_list (h.read source) items

theorem option (h : Faithful α d) (hnull : ∀ a : α, Wire.encode a ≠ .null) :
    Faithful (Option α) d where
  plain
    | none => Plain.null d
    | some a => h.plain a
  read source
    | none => rfl
    | some a => by
      show Json.readOption (Wire.read source) (Wire.encode a) = .ok (some a)
      unfold Json.readOption
      split
      · next heq => exact absurd heq (hnull a)
      · rw [h.read source a]
        rfl

theorem readWord_encode (n : UInt64) : Json.readWord (Wire.encode n) = .ok n := Json.readWord_nat n

theorem readByte_encode (n : UInt8) : Json.readByte (Wire.encode n) = .ok n := Json.readByte_nat n

/-! ## Structures -/

/-- A field of a structure: its value is plain and passes the test for its name. -/
def Field (d : Nat) (tests : List (String × (Json → Json.Reading Unit))) (m : String × Json) :
    Prop := Plain d m.2 ∧ Known tests m

/-- A value of a faithful form makes a field. -/
theorem field {e : Nat} (h : Faithful α d) (hde : d ≤ e)
    {tests : List (String × (Json → Json.Reading Unit))} {name : String} (source : Source) (a : α)
    (hlookup : tests.lookup name = some (Json.test (Wire.read (α := α) source))) :
    Field e tests (name, Wire.encode a) :=
  ⟨(h.plain a).mono hde, _, hlookup, Json.test_ok (h.read source a)⟩

/-- A structure of fields with different names, from which it is built again. -/
theorem ofLayout (l : Source → Json.Layout α) (fields : α → List (String × Json))
    (hencode : ∀ a, Wire.encode a = .record (fields a))
    (hread : ∀ source, Wire.read source = (l source).read source)
    (hfields : ∀ source a, ∀ m ∈ fields a, Field d (l source).tests m)
    (hnames : ∀ a, ((fields a).map Prod.fst).Nodup)
    (hbuild : ∀ source a, (l source).build (.named ((fields a).map Json.keyed)) = .ok a) :
    Faithful α (d + 1) where
  plain a := by
    rw [hencode]
    exact Plain.record fun m hm => (hfields .direct a m hm).1
  read source a := by
    rw [hencode, hread]
    exact Json.Layout.read_record source (fun m hm => (hfields source a m hm).2) (hnames a)
      (hbuild source a)

end Faithful

/-! ## Tagged choices -/

namespace Faithful

variable {α : Type} {d : Nat}

/-- A variant is built again of the fields beside its tag. -/
theorem read_variant {t : Json.Tagged α} {l : Json.Layout α} (source : Source) {name : String}
    {members : List (String × Json)} {a : α} (hvariant : t.variants.lookup name = some l.variant)
    (hfields : ∀ m ∈ members, Field d l.tests m)
    (hnames : (t.tag :: members.map Prod.fst).Nodup)
    (hbuild : l.build (.named (members.map Json.keyed)) = .ok a) :
    t.read source (.record ((t.tag, .string name) :: members)) = .ok a := by
  obtain ⟨htag, hnodup⟩ := List.nodup_cons.mp hnames
  have hbeside : ∀ m ∈ members, m.1 ≠ t.tag ∧ m.2.isReadable = true := fun m hm =>
    ⟨fun heq => htag (heq ▸ List.mem_map_of_mem hm), (hfields m hm).1.readable⟩
  rw [Json.Tagged.read_record source hvariant hbeside]
  exact Json.Layout.read_record .buffered (fun m hm => (hfields m hm).2) hnodup hbuild

/-- A variant is written plainly if its fields are. -/
theorem plain_variant {tests : List (String × (Json → Json.Reading Unit))} {tag name : String}
    {members : List (String × Json)} (hfields : ∀ m ∈ members, Field d tests m) :
    Plain (d + 1) (.record ((tag, .string name) :: members)) :=
  Plain.record (List.forall_mem_cons.mpr ⟨Plain.string d name, fun m hm => (hfields m hm).1⟩)

/-- A variant without fields. -/
theorem plain_empty (tag name : String) : Plain (d + 1) (.record [(tag, .string name)]) :=
  Plain.record (List.forall_mem_cons.mpr ⟨Plain.string d name, List.forall_mem_nil _⟩)

variable {β : Type} [Wire β] {e : Nat}

/-- A variant with one field, written. -/
theorem plain_single (h : Faithful β e) (hed : e ≤ d) {tag name field : String} (b : β) :
    Plain (d + 1) (.record [(tag, .string name), (field, Wire.encode b)]) := by
  refine Plain.record (List.forall_mem_cons.mpr ⟨Plain.string d name, ?_⟩)
  exact List.forall_mem_cons.mpr ⟨(h.plain b).mono hed, List.forall_mem_nil _⟩

/-- A variant with one field, read. -/
theorem read_single (h : Faithful β e) {t : Json.Tagged α} {l : Json.Layout α} (source : Source)
    {name field : String} {make : β → α} (b : β)
    (hvariant : t.variants.lookup name = some l.variant)
    (htag : t.tag ≠ field) (htests : l.tests = [(field, Json.test (Wire.read (α := β) .buffered))])
    (hbuild : ∀ f, l.build f = do
      let value ← f.get 0 field (Wire.read .buffered)
      return make value) :
    t.read source (.record [(t.tag, .string name), (field, Wire.encode b)]) = .ok (make b) := by
  refine read_variant source hvariant (d := e) ?_ (by simpa using htag) ?_
  · rw [htests]
    exact List.forall_mem_cons.mpr
      ⟨h.field (Nat.le_refl e) .buffered b List.lookup_cons_self, List.forall_mem_nil _⟩
  · rw [hbuild, Json.Fields.get_keyed 0 _ List.lookup_cons_self, h.read]
    rfl

end Faithful

end LoginAdmission
