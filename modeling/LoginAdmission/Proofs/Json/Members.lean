/-
  Reading objects by the names of their members.

  A `Form` gives the names that a reader knows: those of the fields of a structure, or a tag and,
  for the variant it names, those beside it. A reader goes by its form (`Form.Governs`) when it
  takes no object in which a known name occurs twice, and when nothing but the values under the
  known names tells what it makes of an object.

  Main statements: structures (`Layout.ByNames.governed`) and tagged choices (`Tagged.governed`) are
  read in this way.
-/
import LoginAdmission.Json.Shape

namespace LoginAdmission.Json

variable {α β : Type}

/-- The values of the members with this key, in their order. -/
def values (name : String) (members : List Member) : List Json :=
  (members.filter (·.1 = some name)).map (·.2)

/-- Which names are known in an object: the fields of a structure; or a tag with the fields of the
variant that it names. -/
inductive Form where
  | record (fields : List String)
  | tagged (tag : String) (variants : List (String × List String))

/-- The names that are known where these are the values under each name. -/
def Form.known (values : String → List Json) : Form → List String
  | record fields => fields
  | tagged tag variants =>
    tag ::
      match values tag with
      | [string variant] => (variants.lookup variant).getD []
      | _ => []

/-- A member with a known name, or one that can be read. -/
def Acceptable (names : List String) (m : Member) : Prop :=
  (∀ name ∈ names, m.1 ≠ some name) → m.1.isSome = true ∧ m.2.isReadable = true

/-- A reader goes by a form: it takes no object where a known name occurs twice, and it takes one as
it takes any other with the same values under the known names. -/
structure Form.Governs (form : Form) (read : Json → Reading α) : Prop where
  once : ∀ members a, read (object members true) = .ok a →
    ∀ name ∈ form.known (values · members), (values name members).length ≤ 1
  agree : ∀ members members' a,
    (∀ name ∈ form.known (values · members), values name members' = values name members) →
    (∀ m ∈ members', Acceptable (form.known (values · members)) m) →
    read (object members true) = .ok a → read (object members' true) = .ok a

/-! ## Values under a name -/

theorem values_cons (name : String) (m : Member) (members : List Member) :
    values name (m :: members) =
      if m.1 = some name then m.2 :: values name members else values name members := by
  unfold values
  by_cases h : m.1 = some name <;> simp [h]

theorem mem_values {name : String} {members : List Member} {j : Json} :
    j ∈ values name members ↔ (some name, j) ∈ members := by
  simp only [values, List.mem_map, List.mem_filter, decide_eq_true_eq]
  constructor
  · rintro ⟨⟨key, value⟩, ⟨hm, rfl⟩, rfl⟩
    exact hm
  · exact fun hm => ⟨_, ⟨hm, rfl⟩, rfl⟩

theorem lookup_eq_head? (name : String) (members : List Member) :
    members.lookup (some name) = (values name members).head? := by
  induction members with
  | nil => rfl
  | cons m members ih =>
    obtain ⟨key, value⟩ := m
    rw [values_cons, List.lookup_cons, ih]
    by_cases h : key = some name
    · simp [h]
    · have hne : (some name == key) = false := beq_eq_false_iff_ne.mpr (Ne.symm h)
      simp [h, hne]

mutual

/-- What can be read can be skipped. -/
theorem skippable_of_readable : ∀ j : Json, j.isReadable = true → j.isSkippable = true
  | null, _ | bool _, _ | number _, _ | string _, _ => rfl
  | array items closed, h => by
    simp only [isReadable, isSkippable, Bool.and_eq_true] at h ⊢
    exact ⟨h.1, areSkippable_of_areReadable items h.2⟩
  | object members closed, h => by
    simp only [isReadable, isSkippable, Bool.and_eq_true] at h ⊢
    exact ⟨h.1, membersAreSkippable_of_membersAreReadable members h.2⟩

theorem areSkippable_of_areReadable :
    ∀ items : List Json, areReadable items = true → areSkippable items = true
  | [], _ => rfl
  | item :: items, h => by
    simp only [areReadable, areSkippable, Bool.and_eq_true] at h ⊢
    exact ⟨skippable_of_readable item h.1, areSkippable_of_areReadable items h.2⟩

theorem membersAreSkippable_of_membersAreReadable :
    ∀ members : List Member, membersAreReadable members = true → membersAreSkippable members = true
  | [], _ => rfl
  | (_, value) :: members, h => by
    simp only [membersAreReadable, membersAreSkippable, Bool.and_eq_true] at h ⊢
    exact ⟨skippable_of_readable value h.1.2, membersAreSkippable_of_membersAreReadable members h.2⟩

end

/-! ## Structures -/

/-- A member that a structure takes: its value passes the test for its name, or has no fault. -/
def Fits (tests : List (String × (Json → Reading Unit))) (m : Member) : Prop :=
  ∃ key, m.1 = some key ∧ (∀ test, tests.lookup key = some test → test m.2 = .ok ()) ∧
    (tests.lookup key = none → m.2.isSkippable = true)

theorem fits_of_unknown {tests : List (String × (Json → Reading Unit))} {key : String}
    (h : tests.lookup key = none) (j : Json) :
    Fits tests (some key, j) ↔ j.isSkippable = true := by
  constructor
  · rintro ⟨_, ⟨⟩, -, hskip⟩
    exact hskip h
  · exact fun hskip => ⟨key, rfl, fun test htest => by simp [h] at htest, fun _ => hskip⟩

theorem fits_of_known {tests : List (String × (Json → Reading Unit))} {key : String}
    {test : Json → Reading Unit} (h : tests.lookup key = some test) (j : Json) :
    Fits tests (some key, j) ↔ test j = .ok () := by
  constructor
  · rintro ⟨_, ⟨⟩, htest, -⟩
    exact htest test h
  · refine fun htest => ⟨key, rfl, fun test' htest' => ?_, fun hnone => ?_⟩
    · cases h.symm.trans htest'
      exact htest
    · cases h.symm.trans hnone

theorem lookup_isSome_iff_mem {tests : List (String × β)} {name : String} :
    (tests.lookup name).isSome = true ↔ name ∈ tests.map Prod.fst := by
  simp [List.lookup_isSome_iff]

theorem mem_of_lookup {κ : Type} [BEq κ] [LawfulBEq κ] {entries : List (κ × β)} {key : κ} {b : β}
    (h : entries.lookup key = some b) : (key, b) ∈ entries := by
  obtain ⟨front, back, rfl, -⟩ := List.lookup_eq_some_iff.mp h
  exact List.mem_append_right front List.mem_cons_self

/-- A value that is found in the place of something else is not read. -/
theorem unexpected_ne_ok (j : Json) (expected : String) (a : α) :
    unexpected j expected ≠ .ok a := by
  intro heq
  unfold unexpected at heq
  split at heq <;> cases heq

theorem mem_of_choose {choices : List (String × β)} {name : String} {b : β}
    (h : choose choices name = .ok b) : (name, b) ∈ choices := by
  unfold choose at h
  split at h
  · next hlookup =>
    cases h
    exact mem_of_lookup hlookup
  · cases h

/-- None of these names occurs twice, or once if it was seen before. -/
def Once (names seen : List String) (members : List Member) : Prop :=
  ∀ name ∈ names, (values name members).length + (if name ∈ seen then 1 else 0) ≤ 1

theorem once_cons_of_not_mem {names : List String} {key : String} (h : key ∉ names)
    (seen : List String) (j : Json) (members : List Member) :
    Once names seen ((some key, j) :: members) ↔ Once names seen members := by
  refine forall₂_congr fun name hname => ?_
  have hne : some key ≠ some name := fun heq => h (Option.some.inj heq ▸ hname)
  rw [values_cons, if_neg hne]

theorem once_cons_of_mem {names : List String} {key : String} (h : key ∈ names)
    (seen : List String) (j : Json) (members : List Member) :
    Once names seen ((some key, j) :: members) ↔
      key ∉ seen ∧ Once names (key :: seen) members := by
  constructor
  · intro honce
    have hkey := honce key h
    rw [values_cons, if_pos rfl, List.length_cons] at hkey
    refine ⟨fun hseen => by rw [if_pos hseen] at hkey; omega, fun name hname => ?_⟩
    have hname' := honce name hname
    by_cases heq : key = name
    · subst heq
      rw [if_pos List.mem_cons_self]
      omega
    · rw [values_cons, if_neg fun hsome => heq (Option.some.inj hsome)] at hname'
      simpa [List.mem_cons, Ne.symm heq] using hname'
  · rintro ⟨hseen, honce⟩ name hname
    have hname' := honce name hname
    by_cases heq : key = name
    · subst heq
      rw [if_pos List.mem_cons_self] at hname'
      rw [values_cons, if_pos rfl, if_neg hseen, List.length_cons]
      omega
    · rw [values_cons, if_neg fun hsome => heq (Option.some.inj hsome)]
      simpa [List.mem_cons, Ne.symm heq] using hname'

/-- The walk over the members ends well when each of them fits, and none that is known occurs twice
or was seen before. -/
theorem scanFields_eq_ok_iff {tests : List (String × (Json → Reading Unit))} {seen : List String}
    {members : List Member} :
    scanFields tests seen members = .ok () ↔
      (∀ m ∈ members, Fits tests m) ∧ Once (tests.map Prod.fst) seen members := by
  induction members generalizing seen with
  | nil =>
    refine iff_of_true rfl ⟨nofun, fun name _ => ?_⟩
    simp only [values, List.filter_nil, List.map_nil, List.length_nil]
    split <;> omega
  | cons m members ih =>
    obtain ⟨_ | key, value⟩ := m
    · refine iff_of_false nofun fun h => ?_
      obtain ⟨key, hkey, -⟩ := h.1 _ List.mem_cons_self
      cases hkey
    rw [scanFields, List.forall_mem_cons]
    cases hlookup : tests.lookup key with
    | none =>
      have hunknown : key ∉ tests.map Prod.fst := by simp [← lookup_isSome_iff_mem, hlookup]
      rw [once_cons_of_not_mem hunknown, fits_of_unknown hlookup, and_assoc, ← ih]
      cases value.isSkippable <;> simp
    | some test =>
      have hknown : key ∈ tests.map Prod.fst := by simp [← lookup_isSome_iff_mem, hlookup]
      rw [once_cons_of_mem hknown, fits_of_known hlookup]
      dsimp only
      by_cases hseen : key ∈ seen
      · simp [hseen, refuse]
      · rw [if_neg hseen]
        cases htest : test value with
        | ok _ => simp [hseen, ih]
        | error e => simp

/-! ## Fields by their names -/

theorem Fields.get_congr {name : String} {members members' : List Member}
    (h : values name members' = values name members) (place : Nat) (read : Json → Reading α) :
    (Fields.named members').get place name read = (Fields.named members).get place name read := by
  unfold Fields.get Fields.value? Fields.absent
  dsimp only
  rw [lookup_eq_head?, lookup_eq_head?, h]

theorem Fields.get?_congr {name : String} {members members' : List Member}
    (h : values name members' = values name members) (place : Nat)
    (read : Json → Reading (Option α)) :
    (Fields.named members').get? place name read = (Fields.named members).get? place name read := by
  unfold Fields.get? Fields.value?
  dsimp only
  rw [lookup_eq_head?, lookup_eq_head?, h]

/-- A structure has fields of these names, and is built of the values under them alone. -/
structure Layout.ByNames (l : Layout α) (names : List String) : Prop where
  tests : l.tests.map Prod.fst = names
  build : ∀ members members' : List Member,
    (∀ name ∈ names, values name members' = values name members) →
    l.build (.named members') = l.build (.named members)

theorem Layout.read_eq_ok_iff {l : Layout α} {source : Source} {members : List Member} {a : α} :
    l.read source (object members true) = .ok a ↔
      scanFields l.tests [] members = .ok () ∧ l.build (.named members) = .ok a := by
  show ((scanFields l.tests [] members).bind fun _ => l.build (.named members)) = .ok a ↔ _
  cases scanFields l.tests [] members with
  | ok _ => simp [Except.bind]
  | error e => simp [Except.bind]

/-- A structure is read by the names of its fields. -/
theorem Layout.ByNames.governed {l : Layout α} {names : List String} (h : l.ByNames names)
    (source : Source) : (Form.record names).Governs (l.read source) where
  once members a hread name hname := by
    have honce := (scanFields_eq_ok_iff.mp (Layout.read_eq_ok_iff.mp hread).1).2
    simpa using honce name (h.tests ▸ hname)
  agree members members' a hvalues haccept hread := by
    obtain ⟨hscan, hbuild⟩ := Layout.read_eq_ok_iff.mp hread
    obtain ⟨hfits, honce⟩ := scanFields_eq_ok_iff.mp hscan
    rw [h.tests] at honce
    refine Layout.read_eq_ok_iff.mpr ⟨scanFields_eq_ok_iff.mpr ⟨?_, ?_⟩, ?_⟩
    · rintro ⟨key, j⟩ hm
      by_cases hknown : ∃ name ∈ names, key = some name
      · obtain ⟨name, hname, rfl⟩ := hknown
        have hj : j ∈ values name members := hvalues name hname ▸ mem_values.mpr hm
        exact hfits _ (mem_values.mp hj)
      · have hbeside : ∀ name ∈ names, key ≠ some name :=
          fun name hname heq => hknown ⟨name, hname, heq⟩
        obtain ⟨hkey, hreadable⟩ := haccept _ hm hbeside
        obtain ⟨name, rfl⟩ := Option.isSome_iff_exists.mp hkey
        have hunknown : l.tests.lookup name = none := by
          rw [← Option.not_isSome_iff_eq_none, lookup_isSome_iff_mem, h.tests]
          exact fun hname => hbeside name hname rfl
        exact (fits_of_unknown hunknown j).mpr (skippable_of_readable j hreadable)
    · rw [h.tests]
      intro name hname
      rw [hvalues name hname]
      exact honce name hname
    · rw [h.build members members' hvalues, hbuild]

/-- A variant without fields is there whatever else is. -/
theorem governed_empty (a : α) : (Form.record []).Governs (readEmpty a) where
  once _ _ _ _ hname := by cases hname
  agree _ _ _ _ _ hread := hread

/-- What is made of a value afterwards does not matter. -/
theorem Form.Governs.bind {form : Form} {read : Json → Reading α} (h : form.Governs read)
    (f : α → Reading β) : form.Governs fun j => (read j).bind f where
  once members b hread := by
    cases hfirst : read (object members true) with
    | ok a => exact h.once members a hfirst
    | error e =>
      rw [hfirst] at hread
      cases hread
  agree members members' b hvalues haccept hread := by
    cases hfirst : read (object members true) with
    | ok a =>
      rw [hfirst] at hread
      rw [h.agree members members' a hvalues haccept hfirst]
      exact hread
    | error e =>
      rw [hfirst] at hread
      cases hread

/-! ## Tagged choices -/

namespace Tagged

variable {t : Tagged α} {source : Source}

/-- A member that a tagged choice takes beside its tag, or the tag. -/
def Taken (t : Tagged α) (m : Member) : Prop :=
  m.1.isSome = true ∧ (m.1 ≠ some t.tag → m.2.isReadable = true)

/-- The walk over the members of a tagged choice, with the tag behind it. -/
theorem scan_some_eq_ok_iff {v : Json → Reading α} {members : List Member}
    {r : Option (Json → Reading α)} :
    t.scan source (some v) members = .ok r ↔
      r = some v ∧ values t.tag members = [] ∧ ∀ m ∈ members, t.Taken m := by
  induction members with
  | nil => simp [scan, values, eq_comm]
  | cons m members ih =>
    obtain ⟨_ | key, j⟩ := m
    · refine iff_of_false nofun fun h => ?_
      cases (h.2.2 _ List.mem_cons_self).1
    rw [scan, values_cons, List.forall_mem_cons]
    by_cases htag : key = t.tag
    · simp [htag, refuse]
    · cases hreadable : j.isReadable <;> simp [htag, Taken, hreadable, ih]

/-- The walk over all members of a tagged choice. -/
theorem scan_none_eq_ok_iff {members : List Member} {v : Json → Reading α} :
    t.scan source none members = .ok (some v) ↔
      (∃ j, values t.tag members = [j] ∧ t.readTag source j = .ok v) ∧
        ∀ m ∈ members, t.Taken m := by
  induction members with
  | nil => simp [scan, values]
  | cons m members ih =>
    obtain ⟨_ | key, j⟩ := m
    · refine iff_of_false nofun fun h => ?_
      cases (h.2 _ List.mem_cons_self).1
    rw [scan, values_cons, List.forall_mem_cons]
    by_cases htag : key = t.tag
    · cases hread : t.readTag source j with
      | ok v' =>
        subst htag
        have htaken : t.Taken (some t.tag, j) := ⟨rfl, fun h => absurd rfl h⟩
        rw [if_pos rfl, if_pos rfl]
        simp only [scan_some_eq_ok_iff, List.cons.injEq, Option.some.injEq]
        constructor
        · rintro ⟨rfl, hnone, hall⟩
          exact ⟨⟨j, ⟨rfl, hnone⟩, hread⟩, htaken, hall⟩
        · rintro ⟨⟨_, ⟨rfl, hnone⟩, hv⟩, -, hall⟩
          cases hread.symm.trans hv
          exact ⟨rfl, hnone, hall⟩
      | error e => simp [htag, hread]
    · cases hreadable : j.isReadable <;> simp [htag, Taken, hreadable, ih]

/-- A tagged choice is read as the variant that its one tag names. -/
theorem read_eq_ok_iff {members : List Member} {a : α} :
    t.read source (object members true) = .ok a ↔
      ∃ j v, values t.tag members = [j] ∧ t.readTag source j = .ok v ∧
        (∀ m ∈ members, t.Taken m) ∧ v (object (t.withoutTag members) true) = .ok a := by
  show (t.scan source none members).bind _ = .ok a ↔ _
  constructor
  · intro h
    cases hscan : t.scan source none members with
    | error e =>
      rw [hscan] at h
      cases h
    | ok variant =>
      rw [hscan] at h
      cases variant with
      | none => cases h
      | some v =>
        obtain ⟨⟨j, hj, htag⟩, hall⟩ := scan_none_eq_ok_iff.mp hscan
        exact ⟨j, v, hj, htag, hall, h⟩
  · rintro ⟨j, v, hj, htag, hall, h⟩
    rw [scan_none_eq_ok_iff.mpr ⟨⟨j, hj, htag⟩, hall⟩]
    exact h

theorem values_tag_withoutTag (members : List Member) :
    values t.tag (t.withoutTag members) = [] := by
  unfold values withoutTag
  rw [List.filter_filter, List.filter_eq_nil_iff.mpr, List.map_nil]
  simp

theorem values_withoutTag {name : String} (h : name ≠ t.tag) (members : List Member) :
    values name (t.withoutTag members) = values name members := by
  unfold values withoutTag
  rw [List.filter_filter]
  congr 1
  refine List.filter_congr fun m _ => ?_
  by_cases hm : m.1 = some name
  · simp [hm, h]
  · simp [hm]

/-- Read directly, a tag is the name of a variant. -/
theorem readTag_direct {j : Json} {v : Json → Reading α} (h : t.readTag .direct j = .ok v) :
    ∃ name, j = string name ∧ (name, v) ∈ t.variants := by
  unfold readTag at h
  split at h
  · next name => exact ⟨name, rfl, mem_of_choose h⟩
  · exact absurd h (unexpected_ne_ok _ _ _)
  · exact absurd h (unexpected_ne_ok _ _ _)

/-- Read in either way, it is one of the variants. -/
theorem exists_of_readTag {j : Json} {v : Json → Reading α} (h : t.readTag source j = .ok v) :
    ∃ name, (name, v) ∈ t.variants := by
  unfold readTag at h
  split at h
  · exact ⟨_, mem_of_choose h⟩
  · split at h
    · split at h
      · next variant hplace =>
        cases h
        exact ⟨variant.1, List.mem_of_getElem? hplace⟩
      · cases h
    · exact absurd h (unexpected_ne_ok _ _ _)
  · exact absurd h (unexpected_ne_ok _ _ _)

/-- A tagged choice is read by its tag and the names of the fields of the variant it names. -/
theorem governed {fields : List (String × List String)}
    (h : ∀ v ∈ t.variants, (Form.record ((fields.lookup v.1).getD [])).Governs v.2) :
    (Form.tagged t.tag fields).Governs (t.read .direct) where
  once members a hread name hname := by
    obtain ⟨j, v, hj, htag, -, hvariant⟩ := read_eq_ok_iff.mp hread
    obtain ⟨variant, rfl, hmem⟩ := readTag_direct htag
    rw [Form.known, hj] at hname
    by_cases heq : name = t.tag
    · rw [heq, hj]
      exact Nat.le_refl 1
    · rw [← values_withoutTag heq members]
      exact (h _ hmem).once _ a hvariant name (List.mem_of_ne_of_mem heq hname)
  agree members members' a hvalues haccept hread := by
    obtain ⟨j, v, hj, htag, htaken, hvariant⟩ := read_eq_ok_iff.mp hread
    obtain ⟨variant, rfl, hmem⟩ := readTag_direct htag
    simp only [Form.known, hj] at hvalues haccept
    have htag' := (hvalues t.tag List.mem_cons_self).trans hj
    refine read_eq_ok_iff.mpr ⟨string variant, v, htag', htag, ?_, ?_⟩
    · rintro ⟨key, j⟩ hm
      by_cases hkey : ∃ name ∈ t.tag :: (fields.lookup variant).getD [], key = some name
      · obtain ⟨name, hname, rfl⟩ := hkey
        exact htaken _ (mem_values.mp (hvalues name hname ▸ mem_values.mpr hm))
      · obtain ⟨hsome, hreadable⟩ := haccept _ hm fun name hname heq => hkey ⟨name, hname, heq⟩
        exact ⟨hsome, fun _ => hreadable⟩
    · refine (h _ hmem).agree _ _ a (fun name hname => ?_) (fun m hm => ?_) hvariant
      · by_cases heq : name = t.tag
        · rw [heq, values_tag_withoutTag, values_tag_withoutTag]
        · rw [values_withoutTag heq, values_withoutTag heq]
          exact hvalues name (List.mem_cons_of_mem _ hname)
      · obtain ⟨hm, hbeside⟩ := List.mem_filter.mp hm
        intro hunknown
        exact haccept m hm (List.forall_mem_cons.mpr ⟨of_decide_eq_true hbeside, hunknown⟩)

end Tagged

end LoginAdmission.Json
