/-
  Values in the compact form are read as they were written.

  `Plain d j` says that a value is built of nothing, truth values, whole numbers of at most 128
  bits, texts, arrays and objects, nested at most `d` deep. Main statement: `read_text`, for plain
  values that are not nested deeper than can be read. The induction is on the value; a fuel of three
  for each character written is enough (`Scanned`).
-/
import LoginAdmission.Proofs.Json.Numerals
import LoginAdmission.Proofs.Json.Strings

namespace LoginAdmission.Json

open Text

/-- A value without fault, nested at most so deep. -/
inductive Plain : Nat → Json → Prop where
  | null (d : Nat) : Plain d null
  | bool (d : Nat) (value : Bool) : Plain d (bool value)
  | nat (d : Nat) {n : Nat} (h : n < wideBound) : Plain d (nat n)
  | string (d : Nat) (value : String) : Plain d (string value)
  | list {d : Nat} {items : List Json} (h : ∀ item ∈ items, Plain d item) :
    Plain (d + 1) (list items)
  | record {d : Nat} {members : List (String × Json)} (h : ∀ m ∈ members, Plain d m.2) :
    Plain (d + 1) (record members)

theorem Plain.mono {d e : Nat} {j : Json} (h : Plain d j) (hde : d ≤ e) : Plain e j := by
  induction h generalizing e with
  | null => exact Plain.null e
  | bool d value => exact Plain.bool e value
  | nat d hn => exact Plain.nat e hn
  | string d value => exact Plain.string e value
  | list _ ih =>
    cases e with
    | zero => cases hde
    | succ e => exact Plain.list fun item hitem => ih item hitem (Nat.le_of_succ_le_succ hde)
  | record _ ih =>
    cases e with
    | zero => cases hde
    | succ e => exact Plain.record fun m hm => ih m hm (Nat.le_of_succ_le_succ hde)

/-- The compact form of a value is read up to what follows it. -/
def Scanned (depth : Nat) (j : Json) : Prop :=
  ∀ fuel rest, 3 * (write j).length ≤ fuel → Follows rest →
    scanValue fuel depth (write j ++ rest) = (j, some rest)

theorem skipSpace_cons {c : Char} (h : isSpace c = false) (cs : List Char) :
    skipSpace (c :: cs) = c :: cs := by
  unfold skipSpace
  rw [List.dropWhile_cons, h]
  rfl

/-! ## Values that hold no others -/

theorem scanned_null (depth : Nat) : Scanned depth null := by
  intro fuel rest hfuel _
  cases fuel with
  | zero => cases hfuel
  | succ fuel => rfl

theorem scanned_bool (depth : Nat) (value : Bool) : Scanned depth (bool value) := by
  intro fuel rest hfuel _
  cases fuel with
  | zero => cases value <;> cases hfuel
  | succ fuel => cases value <;> rfl

/-- A text, its closing quote and what follows it. -/
theorem writeString_append (s : String) (rest : List Char) :
    writeString s ++ rest = '"' :: (s.toList.flatMap escapeChar ++ '"' :: rest) := by
  unfold writeString
  rw [List.cons_append, List.cons_append, List.append_assoc]
  rfl

theorem scanned_string (depth : Nat) (value : String) : Scanned depth (string value) := by
  intro fuel rest hfuel _
  obtain ⟨ps, hscan, hps, -⟩ := scanString_writeString value rest
  cases fuel with
  | zero => cases hfuel
  | succ fuel =>
    show scanValue (fuel + 1) depth (writeString value ++ rest) = _
    rw [writeString_append]
    show leaf ofPieces (scanString? (value.toList.flatMap escapeChar ++ '"' :: rest)) = _
    rw [hscan, leaf, hps]

theorem write_nat (n : Nat) : write (nat n) = numeral n := by
  show writeNumeral (.ofNat n) = numeral n
  simp [writeNumeral, Numeral.ofNat]

/-- A digit is neither a blank nor a closing bracket. -/
theorem isSpace_of_isDigit {c : Char} (h : c.isDigit = true) : isSpace c = false ∧ c ≠ ']' := by
  constructor
  · rw [Bool.eq_false_iff]
    intro hc
    simp only [isSpace, Bool.or_eq_true, beq_iff_eq] at hc
    rcases hc with ((rfl | rfl) | rfl) | rfl <;> exact absurd h (by decide)
  · rintro rfl
    exact absurd h (by decide)

/-- A digit begins a numeral. -/
theorem scanValue_digit (fuel depth : Nat) {c : Char} (h : c.isDigit = true) (cs : List Char) :
    scanValue (fuel + 1) depth (c :: cs) = leaf ofNumeral (scanNumeral? (c :: cs)) := by
  rw [scanValue]
  dsimp only
  rw [skipSpace_cons (isSpace_of_isDigit h).1]
  split
  case h_1 heq => cases heq
  case h_8 => rfl
  -- every other kind of value begins with something else
  all_goals
    next heq =>
      cases heq
      exact absurd h (by decide)

theorem scanned_nat (depth : Nat) {n : Nat} (h : n < wideBound) : Scanned depth (nat n) := by
  intro fuel rest hfuel hrest
  have hscan := scanNumeral_numeral n hrest
  rw [write_nat] at hfuel ⊢
  cases hn : numeral n with
  | nil => exact absurd hn (numeral_ne_nil n)
  | cons c cs =>
    have hdigit : c.isDigit = true := isDigit_of_mem_numeral (hn ▸ List.mem_cons_self)
    rw [hn] at hscan hfuel
    cases fuel with
    | zero => cases hfuel
    | succ fuel =>
      rw [List.cons_append] at hscan ⊢
      rw [scanValue_digit fuel depth hdigit, hscan, leaf, ofNumeral_ofNat h]

/-! ## Arrays -/

/-- A value begins neither with a blank nor with a closing bracket. -/
theorem Plain.head {d : Nat} {j : Json} (h : Plain d j) :
    ∃ c cs, write j = c :: cs ∧ isSpace c = false ∧ c ≠ ']' := by
  cases h with
  | null => exact ⟨_, _, rfl, by decide, by decide⟩
  | bool d value => cases value <;> exact ⟨_, _, rfl, by decide, by decide⟩
  | string d value => exact ⟨_, _, rfl, by decide, by decide⟩
  | list => exact ⟨_, _, rfl, by decide, by decide⟩
  | record => exact ⟨_, _, rfl, by decide, by decide⟩
  | @nat d n =>
    cases hn : numeral n with
    | nil => exact absurd hn (numeral_ne_nil n)
    | cons c cs =>
      have hdigit : c.isDigit = true := isDigit_of_mem_numeral (hn ▸ List.mem_cons_self)
      obtain ⟨hspace, hclose⟩ := isSpace_of_isDigit hdigit
      exact ⟨c, cs, (write_nat n).trans hn, hspace, hclose⟩

theorem writeItems_cons (item next : Json) (items : List Json) :
    writeItems (item :: next :: items) = write item ++ ',' :: writeItems (next :: items) := rfl

/-- Items begin with the first of them. -/
theorem writeItems_eq_append (item : Json) (items : List Json) :
    ∃ tail, writeItems (item :: items) = write item ++ tail := by
  cases items with
  | nil => exact ⟨[], (List.append_nil _).symm⟩
  | cons next items => exact ⟨_, writeItems_cons item next items⟩

theorem scanValue_array (fuel depth : Nat) (cs : List Char) :
    scanValue (fuel + 1) (depth + 1) ('[' :: cs) =
      (array (scanItems fuel depth cs).1 (scanItems fuel depth cs).2.isSome,
        (scanItems fuel depth cs).2) := rfl

theorem scanItems_cons (fuel depth : Nat) {c : Char} (hspace : isSpace c = false) (hclose : c ≠ ']')
    (cs : List Char) : scanItems (fuel + 1) depth (c :: cs) = scanItem fuel depth (c :: cs) := by
  rw [scanItems, skipSpace_cons hspace]
  split
  · next heq =>
    cases heq
    exact absurd rfl hclose
  · rfl

theorem scanItem_last {fuel depth : Nat} {cs rest : List Char} {item : Json}
    (h : scanValue fuel depth cs = (item, some (']' :: rest))) :
    scanItem (fuel + 1) depth cs = ([item], some rest) := by
  rw [scanItem]
  dsimp only
  rw [h]
  rfl

theorem scanItem_comma {fuel depth : Nat} {cs rest : List Char} {item : Json}
    (h : scanValue fuel depth cs = (item, some (',' :: rest))) :
    scanItem (fuel + 1) depth cs =
      (item :: (scanItem fuel depth rest).1, (scanItem fuel depth rest).2) := by
  rw [scanItem]
  dsimp only
  rw [h]
  rfl

/-- Items are read up to the bracket that closes them. -/
theorem scanItem_writeItems {depth : Nat} {items : List Json} (hne : items ≠ [])
    (h : ∀ item ∈ items, Scanned depth item) (fuel : Nat) (rest : List Char)
    (hfuel : 3 * (writeItems items).length + 1 ≤ fuel) :
    scanItem fuel depth (writeItems items ++ ']' :: rest) = (items, some rest) := by
  induction items generalizing fuel with
  | nil => exact absurd rfl hne
  | cons item items ih =>
    have hitem := h item List.mem_cons_self
    cases fuel with
    | zero => cases hfuel
    | succ fuel =>
      cases items with
      | nil =>
        have hlength : 3 * (write item).length + 1 ≤ fuel + 1 := hfuel
        exact scanItem_last (hitem fuel _ (by omega) (Or.inr (Or.inl rfl)))
      | cons next items =>
        have hlength : (writeItems (item :: next :: items)).length =
            (write item).length + ((writeItems (next :: items)).length + 1) := by
          rw [writeItems_cons, List.length_append, List.length_cons]
        rw [hlength] at hfuel
        have hrest := ih (List.cons_ne_nil _ _) (fun j hj => h j (List.mem_cons_of_mem item hj))
          fuel (by omega)
        rw [writeItems_cons, List.append_assoc, List.cons_append,
          scanItem_comma (hitem fuel _ (by omega) (Or.inl rfl)), hrest]

/-- All items behind the bracket of an array. -/
theorem scanItems_writeItems {depth d : Nat} {items : List Json}
    (h : ∀ item ∈ items, Scanned depth item) (hplain : ∀ item ∈ items, Plain d item) (fuel : Nat)
    (rest : List Char) (hfuel : 3 * (writeItems items).length + 2 ≤ fuel) :
    scanItems fuel depth (writeItems items ++ ']' :: rest) = (items, some rest) := by
  cases fuel with
  | zero => cases hfuel
  | succ fuel =>
    cases items with
    | nil => rfl
    | cons item items =>
      have hscan := scanItem_writeItems (List.cons_ne_nil item items) h fuel rest (by omega)
      obtain ⟨c, cs, hc, hspace, hclose⟩ := (hplain item List.mem_cons_self).head
      obtain ⟨tail, htail⟩ := writeItems_eq_append item items
      rw [htail, hc, List.cons_append, List.cons_append] at hscan ⊢
      rw [scanItems_cons fuel depth hspace hclose, hscan]

theorem scanned_list {depth d : Nat} {items : List Json} (h : ∀ item ∈ items, Scanned depth item)
    (hplain : ∀ item ∈ items, Plain d item) : Scanned (depth + 1) (list items) := by
  intro fuel rest hfuel _
  have hwrite : write (list items) = '[' :: (writeItems items ++ [']']) := rfl
  rw [hwrite, List.length_cons, List.length_append] at hfuel
  cases fuel with
  | zero => cases hfuel
  | succ fuel =>
    have hscan := scanItems_writeItems h hplain fuel rest (by omega)
    rw [hwrite, List.cons_append, List.append_assoc, List.singleton_append, scanValue_array, hscan]
    rfl

/-! ## Objects -/

/-- A member with its key. -/
def keyed (m : String × Json) : Member := (some m.1, m.2)

theorem scanValue_object (fuel depth : Nat) (cs : List Char) :
    scanValue (fuel + 1) (depth + 1) ('\x7b' :: cs) =
      (object (scanMembers fuel depth cs).1 (scanMembers fuel depth cs).2.isSome,
        (scanMembers fuel depth cs).2) := rfl

/-- The key of a member is read and its value comes next. -/
theorem scanMember_last {fuel depth : Nat} (key : String) {cs rest : List Char} {value : Json}
    (h : scanValue fuel depth cs = (value, some ('\x7d' :: rest))) :
    scanMember (fuel + 1) depth (writeString key ++ ':' :: cs) =
      ([(some key, value)], some rest) := by
  obtain ⟨ps, hscan, -, hkey⟩ := scanString_writeString key (':' :: cs)
  rw [writeString_append, scanMember, skipSpace_cons (by decide)]
  simp only [hscan, skipSpace_cons (show isSpace ':' = false from rfl), h, hkey]
  rfl

theorem scanMember_comma {fuel depth : Nat} (key : String) {cs rest : List Char} {value : Json}
    (h : scanValue fuel depth cs = (value, some (',' :: rest))) :
    scanMember (fuel + 1) depth (writeString key ++ ':' :: cs) =
      ((some key, value) :: (scanMember fuel depth rest).1, (scanMember fuel depth rest).2) := by
  obtain ⟨ps, hscan, -, hkey⟩ := scanString_writeString key (':' :: cs)
  rw [writeString_append, scanMember, skipSpace_cons (by decide)]
  simp only [hscan, skipSpace_cons (show isSpace ':' = false from rfl), h, hkey]
  rfl

/-- Members are read up to the brace that closes them. -/
theorem scanMember_writeMembers {depth : Nat} {members : List (String × Json)} (hne : members ≠ [])
    (h : ∀ m ∈ members, Scanned depth m.2) (fuel : Nat) (rest : List Char)
    (hfuel : 3 * (writeMembers (members.map keyed)).length + 1 ≤ fuel) :
    scanMember fuel depth (writeMembers (members.map keyed) ++ '\x7d' :: rest) =
      (members.map keyed, some rest) := by
  induction members generalizing fuel with
  | nil => exact absurd rfl hne
  | cons m members ih =>
    have hvalue := h m List.mem_cons_self
    cases fuel with
    | zero => cases hfuel
    | succ fuel =>
      cases members with
      | nil =>
        have hwrite : writeMembers ([m].map keyed) = writeString m.1 ++ ':' :: write m.2 := rfl
        rw [hwrite, List.length_append, List.length_cons] at hfuel
        rw [hwrite, List.append_assoc, List.cons_append]
        exact scanMember_last m.1 (hvalue fuel _ (by omega) (Or.inr (Or.inr rfl)))
      | cons next members =>
        have hwrite : writeMembers ((m :: next :: members).map keyed) =
            writeString m.1 ++ ':' :: write m.2 ++
              ',' :: writeMembers ((next :: members).map keyed) := rfl
        rw [hwrite, List.length_append, List.length_append, List.length_cons,
          List.length_cons] at hfuel
        have hrest := ih (List.cons_ne_nil _ _) (fun j hj => h j (List.mem_cons_of_mem m hj))
          fuel (by omega)
        rw [hwrite, List.append_assoc, List.append_assoc, List.cons_append, List.cons_append,
          scanMember_comma m.1 (hvalue fuel _ (by omega) (Or.inl rfl)), hrest]
        rfl

/-- All members behind the brace of an object. -/
theorem scanMembers_writeMembers {depth : Nat} {members : List (String × Json)}
    (h : ∀ m ∈ members, Scanned depth m.2) (fuel : Nat) (rest : List Char)
    (hfuel : 3 * (writeMembers (members.map keyed)).length + 2 ≤ fuel) :
    scanMembers fuel depth (writeMembers (members.map keyed) ++ '\x7d' :: rest) =
      (members.map keyed, some rest) := by
  cases fuel with
  | zero => cases hfuel
  | succ fuel =>
    cases members with
    | nil => rfl
    | cons m members =>
      rw [← scanMember_writeMembers (List.cons_ne_nil m members) h fuel rest (by omega)]
      cases members <;> rfl

theorem scanned_record {depth : Nat} {members : List (String × Json)}
    (h : ∀ m ∈ members, Scanned depth m.2) : Scanned (depth + 1) (record members) := by
  intro fuel rest hfuel _
  have hwrite : write (record members) =
      '\x7b' :: (writeMembers (members.map keyed) ++ ['\x7d']) := rfl
  rw [hwrite, List.length_cons, List.length_append] at hfuel
  cases fuel with
  | zero => cases hfuel
  | succ fuel =>
    have hscan := scanMembers_writeMembers h fuel rest (by omega)
    rw [hwrite, List.cons_append, List.append_assoc, List.singleton_append, scanValue_object, hscan]
    rfl

/-! ## Any plain value -/

/-- A plain value is read up to what follows it, if it may be nested that deep. -/
theorem Plain.scanned {d : Nat} {j : Json} (h : Plain d j) {depth : Nat} (hdepth : d ≤ depth) :
    Scanned depth j := by
  induction h generalizing depth with
  | null => exact scanned_null depth
  | bool d value => exact scanned_bool depth value
  | nat d hn => exact scanned_nat depth hn
  | string d value => exact scanned_string depth value
  | list hitems ih =>
    cases depth with
    | zero => cases hdepth
    | succ depth =>
      exact scanned_list (fun item hitem => ih item hitem (Nat.le_of_succ_le_succ hdepth)) hitems
  | record _ ih =>
    cases depth with
    | zero => cases hdepth
    | succ depth => exact scanned_record fun m hm => ih m hm (Nat.le_of_succ_le_succ hdepth)

/-- The text of a plain value is read as that value, with nothing behind it. -/
theorem read_text {d : Nat} {j : Json} (h : Plain d j) (hdepth : d ≤ depthLimit) :
    JsonText.read j.text = ⟨j, true⟩ := by
  have hscan := h.scanned hdepth (3 * (write j).length + 3) [] (by omega) trivial
  rw [List.append_nil] at hscan
  unfold JsonText.read text
  rw [String.toList_ofList]
  dsimp only
  rw [hscan]
  rfl

theorem areReadable_of_forall {items : List Json} (h : ∀ item ∈ items, isReadable item = true) :
    areReadable items = true := by
  induction items with
  | nil => rfl
  | cons item items ih =>
    rw [areReadable, h item List.mem_cons_self, ih fun j hj => h j (List.mem_cons_of_mem item hj)]
    rfl

theorem membersAreReadable_of_forall {members : List (String × Json)}
    (h : ∀ m ∈ members, isReadable m.2 = true) :
    membersAreReadable (members.map keyed) = true := by
  induction members with
  | nil => rfl
  | cons m members ih =>
    rw [List.map_cons, keyed, membersAreReadable, h m List.mem_cons_self,
      ih fun j hj => h j (List.mem_cons_of_mem m hj)]
    rfl

/-- A plain value has no fault. -/
theorem Plain.readable {d : Nat} {j : Json} (h : Plain d j) : j.isReadable = true := by
  induction h with
  | null | bool | nat | string => rfl
  | list _ ih => exact areReadable_of_forall ih
  | record _ ih => exact membersAreReadable_of_forall ih

end LoginAdmission.Json
