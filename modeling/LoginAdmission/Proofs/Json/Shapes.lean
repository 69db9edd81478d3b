/-
  Reading by shape, for objects that hold exactly what they should.

  `Known tests m` says that a member has one of the tested names and a value that passes the test.
  Main statements: a structure whose members are known and differ in their names is built of them
  (`Layout.read_record`), and a tagged choice whose tag comes first is read as the variant it names
  (`Tagged.read_record`).
-/
import LoginAdmission.Json.Shape
import LoginAdmission.Proofs.Json.Values

namespace LoginAdmission.Json

variable {α : Type}

/-! ## Single values -/

theorem readUnsigned_nat {bound n : Nat} (expected : String) (hbound : n < bound)
    (hword : n < wordBound) : readUnsigned bound expected (nat n) = .ok n := by
  unfold readUnsigned nat
  dsimp only
  rw [number_word hword]
  exact if_pos hbound

theorem readByte_nat (n : UInt8) : readByte (nat n.toNat) = .ok n := by
  have hbound : n.toNat < byteBound := n.toNat_lt
  have hword : n.toNat < wordBound := Nat.lt_trans hbound (by decide)
  unfold readByte
  rw [readUnsigned_nat "u8" hbound hword, Except.map, UInt8.ofNat_toNat]

theorem readWord_nat (n : UInt64) : readWord (nat n.toNat) = .ok n := by
  have hbound : n.toNat < wordBound := n.toNat_lt
  unfold readWord
  rw [readUnsigned_nat "u64" hbound hbound, Except.map, UInt64.ofNat_toNat]

theorem readWide_nat (n : BitVec 128) : readWide (nat n.toNat) = .ok n := by
  have hbound : n.toNat < wideBound := n.isLt
  have hvalue : Text.digitsValue (Numeral.ofNat n.toNat).whole = n.toNat :=
    Text.digitsValue_numeral n.toNat
  unfold readWide nat
  dsimp only
  rw [hvalue, isWhole_ofNat, if_pos (by simp [Numeral.ofNat, hbound]), BitVec.ofNat_toNat]
  rfl

theorem readItems_list {β : Type} {encode : β → Json} {read : Json → Reading β}
    (h : ∀ b, read (encode b) = .ok b) (items : List β) :
    readItems read (list (items.map encode)) = .ok items := by
  have hread : read ∘ encode = pure := funext h
  have hitems : (items.map encode).mapM read = .ok items := by
    rw [List.mapM_map, hread]
    exact (List.mapM_pure (f := id)).trans (congrArg pure (List.map_id items))
  unfold readItems list
  dsimp only
  rw [hitems]
  rfl

/-! ## Structures -/

/-- A member that a structure knows, with a value that passes its test. -/
def Known (tests : List (String × (Json → Reading Unit))) (m : String × Json) : Prop :=
  ∃ test, tests.lookup m.1 = some test ∧ test m.2 = .ok ()

theorem test_ok {read : Json → Reading α} {j : Json} {a : α} (h : read j = .ok a) :
    test read j = .ok () := by
  unfold test
  rw [h]
  rfl

/-- Known members with different names pass. -/
theorem scanFields_keyed {tests : List (String × (Json → Reading Unit))} (seen : List String)
    {members : List (String × Json)} (hknown : ∀ m ∈ members, Known tests m)
    (hseen : ∀ m ∈ members, m.1 ∉ seen) (hnames : (members.map Prod.fst).Nodup) :
    scanFields tests seen (members.map keyed) = .ok () := by
  induction members generalizing seen with
  | nil => rfl
  | cons m members ih =>
    obtain ⟨test, hlookup, htest⟩ := hknown m List.mem_cons_self
    rw [List.map_cons, List.nodup_cons] at hnames
    rw [List.map_cons, keyed, scanFields, hlookup]
    dsimp only
    rw [if_neg (hseen m List.mem_cons_self), htest]
    dsimp only
    refine ih _ (fun j hj => hknown j (List.mem_cons_of_mem m hj)) (fun j hj => ?_) hnames.2
    rw [List.mem_cons, not_or]
    refine ⟨fun heq => hnames.1 ?_, hseen j (List.mem_cons_of_mem m hj)⟩
    exact heq ▸ List.mem_map_of_mem hj

theorem lookup_keyed (members : List (String × Json)) (name : String) :
    (members.map keyed).lookup (some name) = members.lookup name := by
  induction members with
  | nil => rfl
  | cons m members ih =>
    obtain ⟨key, value⟩ := m
    rw [List.map_cons, keyed, List.lookup_cons, List.lookup_cons, Option.some_beq_some, ih]

/-- A field among the members is read. -/
theorem Fields.get_keyed {members : List (String × Json)} (place : Nat) {name : String} {j : Json}
    (read : Json → Reading α) (h : members.lookup name = some j) :
    (Fields.named (members.map keyed)).get place name read = read j := by
  unfold Fields.get Fields.value?
  dsimp only
  rw [lookup_keyed, h]

theorem Fields.get?_keyed {members : List (String × Json)} (place : Nat) {name : String} {j : Json}
    (read : Json → Reading (Option α)) (h : members.lookup name = some j) :
    (Fields.named (members.map keyed)).get? place name read = read j := by
  unfold Fields.get? Fields.value?
  dsimp only
  rw [lookup_keyed, h]

/-- A structure is built of known members with different names. -/
theorem Layout.read_record {l : Layout α} (source : Source) {members : List (String × Json)} {a : α}
    (hknown : ∀ m ∈ members, Known l.tests m) (hnames : (members.map Prod.fst).Nodup)
    (hbuild : l.build (.named (members.map keyed)) = .ok a) :
    l.read source (record members) = .ok a := by
  have hscan := scanFields_keyed [] hknown (fun _ _ => List.not_mem_nil) hnames
  show (do
    scanFields l.tests [] (members.map keyed)
    l.build (.named (members.map keyed))) = _
  rw [hscan]
  exact hbuild

/-! ## Choices -/

theorem choose_ok {choices : List (String × α)} {name : String} {a : α}
    (h : choices.lookup name = some a) : choose choices name = .ok a := by
  unfold choose
  rw [h]

/-- The members beside a tag are taken in. -/
theorem Tagged.scan_keyed {t : Tagged α} (source : Source) {variant : Json → Reading α}
    {members : List (String × Json)}
    (h : ∀ m ∈ members, m.1 ≠ t.tag ∧ m.2.isReadable = true) :
    t.scan source (some variant) (members.map keyed) = .ok (some variant) := by
  induction members with
  | nil => rfl
  | cons m members ih =>
    obtain ⟨hname, hreadable⟩ := h m List.mem_cons_self
    rw [List.map_cons, keyed, Tagged.scan, if_neg hname, if_pos hreadable]
    exact ih fun j hj => h j (List.mem_cons_of_mem m hj)

theorem Tagged.withoutTag_keyed {t : Tagged α} (tag : Json) {members : List (String × Json)}
    (h : ∀ m ∈ members, m.1 ≠ t.tag) :
    t.withoutTag (keyed (t.tag, tag) :: members.map keyed) = members.map keyed := by
  unfold Tagged.withoutTag
  rw [List.filter_cons_of_neg (by simp [keyed]), List.filter_eq_self]
  intro member hmember
  obtain ⟨m, hm, rfl⟩ := List.mem_map.mp hmember
  exact decide_eq_true fun heq => h m hm (Option.some.inj heq)

/-- A tagged choice is read as the variant that its tag names. -/
theorem Tagged.read_record {t : Tagged α} (source : Source) {name : String}
    {variant : Json → Reading α} {members : List (String × Json)}
    (hvariant : t.variants.lookup name = some variant)
    (h : ∀ m ∈ members, m.1 ≠ t.tag ∧ m.2.isReadable = true) :
    t.read source (record ((t.tag, string name) :: members)) = variant (record members) := by
  have htag : t.readTag source (string name) = .ok variant := choose_ok hvariant
  have hscan : t.scan source none (keyed (t.tag, string name) :: members.map keyed) =
      .ok (some variant) := by
    rw [keyed, Tagged.scan, if_pos rfl]
    dsimp only
    rw [htag]
    exact Tagged.scan_keyed source h
  show t.read source (object (keyed (t.tag, string name) :: members.map keyed) true) = _
  unfold Tagged.read
  dsimp only
  rw [hscan]
  simp only [Bind.bind, Except.bind, Bool.not_true]
  rw [Tagged.withoutTag_keyed _ fun m hm => (h m hm).1]
  rfl

end LoginAdmission.Json
