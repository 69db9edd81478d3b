/-
  A value is told by the characters it takes up.

  Where a value is read, it is read from a part of the text that does not depend on what stands
  behind it, as long as that cannot go on a numeral (`Stops`). So a value in the middle of a text is
  the one that its characters make on their own. Main statement: `scanValue_local`, by induction
  on the fuel over all five mutual scans (`Located`); a fuel of three for each character is enough.
-/
import Mathlib.Data.List.TakeDrop
import Mathlib.Data.List.TakeWhile
import LoginAdmission.Json.Reader

namespace LoginAdmission.Json

/-- What cannot go on a numeral: the end, or anything but a digit, a point or the sign of an
exponent. -/
def Stops : List Char → Prop
  | [] => True
  | c :: _ => c.isDigit = false ∧ c ≠ '.' ∧ c ≠ 'e' ∧ c ≠ 'E'

/-- What begins with no digit. -/
def NoDigit : List Char → Prop
  | [] => True
  | c :: _ => c.isDigit = false

theorem Stops.noDigit {cs : List Char} (h : Stops cs) : NoDigit cs := by
  cases cs with
  | nil => trivial
  | cons c cs => exact h.1

/-! ## Texts and words -/

theorem scanString?_local {cs rest : List Char} {ps : List Piece}
    (h : scanString? cs = some (ps, rest)) :
    ∃ used, cs = used ++ rest ∧ ∀ ext, scanString? (used ++ ext) = some (ps, ext) := by
  fun_induction scanString? cs generalizing ps with
  | case1 => cases h
  | case2 cs =>
    cases h
    exact ⟨['"'], rfl, fun ext => by rw [List.singleton_append, scanString?]⟩
  | case3 => cases h
  | case4 a b c d cs n hunit ih =>
    obtain ⟨⟨ps', rest'⟩, hscan, heq⟩ := Option.map_eq_some_iff.mp h
    cases heq
    obtain ⟨used, rfl, hused⟩ := ih hscan
    refine ⟨'\\' :: 'u' :: a :: b :: c :: d :: used, rfl, fun ext => ?_⟩
    simp only [List.cons_append, scanString?, hunit, hused]
    rfl
  | case5 => cases h
  | case6 c cs hu e hescape ih =>
    obtain ⟨⟨ps', rest'⟩, hscan, heq⟩ := Option.map_eq_some_iff.mp h
    cases heq
    obtain ⟨used, rfl, hused⟩ := ih hscan
    have hletter : c ≠ 'u' := by
      rintro rfl
      cases hescape
    refine ⟨'\\' :: c :: used, rfl, fun ext => ?_⟩
    rw [List.cons_append, List.cons_append, scanString?, hescape, hused]
    · rfl
    · exact fun _ _ _ _ _ hc _ => hletter hc
  | case7 => cases h
  | case8 c cs hquote hunit hslash hplain ih =>
    obtain ⟨⟨ps', rest'⟩, hscan, heq⟩ := Option.map_eq_some_iff.mp h
    cases heq
    obtain ⟨used, rfl, hused⟩ := ih hscan
    have hnot : c ≠ '\\' := fun hc => hplain (.inl hc)
    refine ⟨c :: used, rfl, fun ext => ?_⟩
    rw [List.cons_append, scanString?, if_neg hplain, hused]
    · rfl
    · exact hquote
    · exact fun _ _ _ _ _ hc _ => hnot hc
    · exact fun _ _ hc _ => hnot hc

theorem word_local {w cs rest : List Char} {j j' : Json} (h : word w j cs = (j', some rest)) :
    cs = w ++ rest ∧ ∀ ext, word w j (w ++ ext) = (j', some ext) := by
  unfold word at h
  split at h
  · next hprefix =>
    cases h
    obtain ⟨tail, rfl⟩ := List.isPrefixOf_iff_prefix.mp hprefix
    refine ⟨by rw [List.drop_left], fun ext => ?_⟩
    unfold word
    rw [if_pos (List.isPrefixOf_iff_prefix.mpr (List.prefix_append w ext)), List.drop_left]
  · cases h

/-! ## Numerals -/

theorem span_local {cs ds rest : List Char} (h : cs.span Char.isDigit = (ds, rest)) :
    cs = ds ++ rest ∧ ∀ ext, NoDigit ext → (ds ++ ext).span Char.isDigit = (ds, ext) := by
  rw [List.span_eq_takeWhile_dropWhile, Prod.mk.injEq] at h
  obtain ⟨rfl, rfl⟩ := h
  refine ⟨List.takeWhile_append_dropWhile.symm, fun ext hext => ?_⟩
  have hdigits : ∀ c ∈ cs.takeWhile Char.isDigit, c.isDigit = true :=
    fun c hc => List.mem_takeWhile_imp hc
  have hrest : ext.takeWhile Char.isDigit = [] ∧ ext.dropWhile Char.isDigit = ext := by
    cases ext with
    | nil => exact ⟨rfl, rfl⟩
    | cons c ext =>
      have hc : ¬ c.isDigit = true := Bool.eq_false_iff.mp hext
      exact ⟨List.takeWhile_cons_of_neg hc, List.dropWhile_cons_of_neg hc⟩
  rw [List.span_eq_takeWhile_dropWhile, List.takeWhile_append_of_pos hdigits,
    List.dropWhile_append_of_pos hdigits, hrest.1, hrest.2, List.append_nil]

theorem scanDigits?_iff {cs ds rest : List Char} :
    scanDigits? cs = some (ds, rest) ↔ cs.span Char.isDigit = (ds, rest) ∧ ds ≠ [] := by
  unfold scanDigits?
  split
  · next heq =>
    rw [heq]
    refine ⟨nofun, ?_⟩
    rintro ⟨⟨⟩, hempty⟩
    exact absurd rfl hempty
  · next hempty heq =>
    rw [heq]
    refine ⟨?_, ?_⟩
    · rintro ⟨⟩
      exact ⟨rfl, hempty⟩
    · rintro ⟨⟨⟩, -⟩
      rfl

theorem scanWhole?_iff {cs ds rest : List Char} :
    scanWhole? cs = some (ds, rest) ↔
      cs.span Char.isDigit = (ds, rest) ∧ ds ≠ [] ∧ ∀ d ds', ds ≠ '0' :: d :: ds' := by
  unfold scanWhole?
  split
  · next heq =>
    rw [heq]
    refine ⟨nofun, ?_⟩
    rintro ⟨⟨⟩, hempty, -⟩
    exact absurd rfl hempty
  · next heq =>
    rw [heq]
    refine ⟨nofun, ?_⟩
    rintro ⟨⟨⟩, -, hzero⟩
    exact absurd rfl (hzero _ _)
  · next hempty hzero heq =>
    rw [heq]
    refine ⟨?_, ?_⟩
    · rintro ⟨⟩
      exact ⟨rfl, hempty, hzero⟩
    · rintro ⟨⟨⟩, -⟩
      rfl

theorem scanDigits?_local {cs ds rest : List Char} (h : scanDigits? cs = some (ds, rest)) :
    cs = ds ++ rest ∧ ∀ ext, NoDigit ext → scanDigits? (ds ++ ext) = some (ds, ext) := by
  obtain ⟨hspan, hempty⟩ := scanDigits?_iff.mp h
  obtain ⟨hcs, hlocal⟩ := span_local hspan
  exact ⟨hcs, fun ext hext => scanDigits?_iff.mpr ⟨hlocal ext hext, hempty⟩⟩

theorem scanWhole?_local {cs ds rest : List Char} (h : scanWhole? cs = some (ds, rest)) :
    cs = ds ++ rest ∧ ∀ ext, NoDigit ext → scanWhole? (ds ++ ext) = some (ds, ext) := by
  obtain ⟨hspan, hwhole⟩ := scanWhole?_iff.mp h
  obtain ⟨hcs, hlocal⟩ := span_local hspan
  exact ⟨hcs, fun ext hext => scanWhole?_iff.mpr ⟨hlocal ext hext, hwhole⟩⟩

theorem scanFraction?_none {ext : List Char} (h : ext.head? ≠ some '.') :
    scanFraction? ext = some ([], ext) := by
  unfold scanFraction?
  split
  · exact absurd rfl h
  · rfl

/-- The point and the digits behind it, if there is a point. -/
theorem scanFraction?_local {cs ds rest : List Char} (h : scanFraction? cs = some (ds, rest)) :
    ∃ used, cs = used ++ rest ∧ ∀ ext, NoDigit ext → ext.head? ≠ some '.' →
      scanFraction? (used ++ ext) = some (ds, ext) ∧ NoDigit (used ++ ext) := by
  unfold scanFraction? at h
  split at h
  · obtain ⟨rfl, hlocal⟩ := scanDigits?_local h
    exact ⟨'.' :: ds, rfl, fun ext hext _ => ⟨hlocal ext hext, rfl⟩⟩
  · cases h
    exact ⟨[], rfl, fun ext hext hpoint => ⟨scanFraction?_none hpoint, hext⟩⟩

theorem scanExponent?_none {ext : List Char} (h : Stops ext) :
    scanExponent? ext = some (none, ext) ∧ ext.head? ≠ some '.' := by
  cases ext with
  | nil => exact ⟨rfl, nofun⟩
  | cons c ext =>
    obtain ⟨-, hpoint, hsmall, hcapital⟩ := h
    exact ⟨if_neg (not_or.mpr ⟨hsmall, hcapital⟩), fun heq => hpoint (Option.some.inj heq)⟩

/-- The digits of an exponent with this sign. -/
def exponentDigits? (negative : Bool) (cs : List Char) :
    Option (Option (Bool × List Char) × List Char) :=
  (scanDigits? cs).map fun (ds, rest) => (some (negative, ds), rest)

theorem exponentDigits?_local {negative : Bool} {cs rest : List Char}
    {e : Option (Bool × List Char)} (h : exponentDigits? negative cs = some (e, rest)) :
    ∃ d ds, cs = d :: ds ++ rest ∧
      ∀ ext, NoDigit ext → exponentDigits? negative (d :: ds ++ ext) = some (e, ext) := by
  obtain ⟨⟨ds, rest'⟩, hscan, heq⟩ := Option.map_eq_some_iff.mp h
  cases heq
  obtain ⟨hcs, hlocal⟩ := scanDigits?_local hscan
  obtain ⟨d, ds, rfl⟩ := List.exists_cons_of_ne_nil (scanDigits?_iff.mp hscan).2
  refine ⟨d, ds, hcs, fun ext hext => ?_⟩
  unfold exponentDigits?
  rw [hlocal ext hext]
  rfl

/-- The exponent with its sign, if there is one. -/
theorem scanExponent?_local {cs rest : List Char} {e : Option (Bool × List Char)}
    (h : scanExponent? cs = some (e, rest)) :
    ∃ used, cs = used ++ rest ∧ ∀ ext, Stops ext → scanExponent? (used ++ ext) = some (e, ext) ∧
      NoDigit (used ++ ext) ∧ (used ++ ext).head? ≠ some '.' := by
  cases cs with
  | nil =>
    cases h
    exact ⟨[], rfl, fun ext hext =>
      ⟨(scanExponent?_none hext).1, hext.noDigit, (scanExponent?_none hext).2⟩⟩
  | cons c cs =>
    by_cases hmark : c = 'e' ∨ c = 'E'
    · have hhead : c.isDigit = false ∧ some c ≠ some '.' := by
        rcases hmark with rfl | rfl <;> exact ⟨rfl, by decide⟩
      simp only [scanExponent?, if_pos hmark] at h
      split at h
      · next tail =>
        have hdigits : exponentDigits? true tail = some (e, rest) := h
        obtain ⟨d, ds, rfl, hlocal⟩ := exponentDigits?_local hdigits
        refine ⟨c :: '-' :: d :: ds, rfl, fun ext hext => ⟨?_, hhead⟩⟩
        exact (if_pos hmark).trans (hlocal ext hext.noDigit)
      · next tail =>
        have hdigits : exponentDigits? false tail = some (e, rest) := h
        obtain ⟨d, ds, rfl, hlocal⟩ := exponentDigits?_local hdigits
        refine ⟨c :: '+' :: d :: ds, rfl, fun ext hext => ⟨?_, hhead⟩⟩
        exact (if_pos hmark).trans (hlocal ext hext.noDigit)
      · next hminus hplus =>
        have hdigits : exponentDigits? false cs = some (e, rest) := h
        obtain ⟨d, ds, rfl, hlocal⟩ := exponentDigits?_local hdigits
        refine ⟨c :: d :: ds, rfl, fun ext hext => ⟨?_, hhead⟩⟩
        refine (if_pos hmark).trans ?_
        split
        · next heq =>
          cases heq
          exact (hminus _ rfl).elim
        · next heq =>
          cases heq
          exact (hplus _ rfl).elim
        · exact hlocal ext hext.noDigit
    · have hnone : scanExponent? (c :: cs) = some (none, c :: cs) := if_neg hmark
      cases hnone.symm.trans h
      exact ⟨[], rfl, fun ext hext =>
        ⟨(scanExponent?_none hext).1, hext.noDigit, (scanExponent?_none hext).2⟩⟩

theorem scanUnsigned?_local {negative : Bool} {cs rest : List Char} {n : Numeral}
    (h : scanUnsigned? negative cs = some (n, rest)) :
    ∃ d ds, cs = d :: ds ++ rest ∧
      ∀ ext, Stops ext → scanUnsigned? negative (d :: ds ++ ext) = some (n, ext) := by
  simp only [scanUnsigned?, Option.bind_eq_bind, Option.bind_eq_some_iff, Prod.exists,
    Option.pure_def, Option.some.injEq, Prod.mk.injEq] at h
  obtain ⟨whole, cs₁, hwhole, fraction, cs₂, hfraction, exponent, cs₃, hexponent, rfl, rfl⟩ := h
  obtain ⟨rfl, hwhole'⟩ := scanWhole?_local hwhole
  obtain ⟨point, rfl, hfraction'⟩ := scanFraction?_local hfraction
  obtain ⟨mark, rfl, hexponent'⟩ := scanExponent?_local hexponent
  obtain ⟨d, ds, rfl⟩ := List.exists_cons_of_ne_nil (scanWhole?_iff.mp hwhole).2.1
  refine ⟨d, ds ++ point ++ mark, by simp, fun ext hext => ?_⟩
  obtain ⟨hmark, hmarkDigit, hmarkPoint⟩ := hexponent' ext hext
  obtain ⟨hpoint, hpointDigit⟩ := hfraction' (mark ++ ext) hmarkDigit hmarkPoint
  have hsplit : d :: (ds ++ point ++ mark) ++ ext = (d :: ds) ++ (point ++ (mark ++ ext)) := by simp
  simp only [scanUnsigned?, hsplit, hwhole' _ hpointDigit, hpoint, hmark, Option.bind_eq_bind,
    Option.bind_some, Option.pure_def]

/-- A numeral takes up at least one character, and as many whatever stops it. -/
theorem scanNumeral?_local {cs rest : List Char} {n : Numeral}
    (h : scanNumeral? cs = some (n, rest)) :
    ∃ d ds, cs = d :: ds ++ rest ∧
      ∀ ext, Stops ext → scanNumeral? (d :: ds ++ ext) = some (n, ext) := by
  unfold scanNumeral? at h
  split at h
  · obtain ⟨d, ds, rfl, hlocal⟩ := scanUnsigned?_local h
    exact ⟨'-', d :: ds, rfl, hlocal⟩
  · next hminus =>
    obtain ⟨d, ds, rfl, hlocal⟩ := scanUnsigned?_local h
    refine ⟨d, ds, rfl, fun ext hext => ?_⟩
    unfold scanNumeral?
    split
    · next heq =>
      cases heq
      exact (hminus _ rfl).elim
    · exact hlocal ext hext

/-! ## Blanks -/

/-- What is left once the blanks are skipped begins with none. -/
theorem isSpace_of_skipSpace {cs tail : List Char} {c : Char} (h : skipSpace cs = c :: tail) :
    isSpace c = false := by
  have hdrop : cs.dropWhile isSpace = c :: tail := h
  have hne : cs.dropWhile isSpace ≠ [] := hdrop ▸ List.cons_ne_nil c tail
  have hnot := List.head_dropWhile_not isSpace hne
  simpa only [hdrop, List.head_cons] using hnot

/-- Blanks are skipped whatever stands behind the character that ends them. -/
theorem skipSpace_local {cs tail : List Char} {c : Char} (h : skipSpace cs = c :: tail) :
    ∃ blanks, cs = blanks ++ c :: tail ∧ (∀ b ∈ blanks, isSpace b = true) ∧
      ∀ ext, skipSpace (blanks ++ c :: ext) = c :: ext := by
  have hblanks : ∀ b ∈ cs.takeWhile isSpace, isSpace b = true :=
    fun b hb => List.mem_takeWhile_imp hb
  have hc : ¬ isSpace c = true := Bool.eq_false_iff.mp (isSpace_of_skipSpace h)
  refine ⟨cs.takeWhile isSpace, ?_, hblanks, fun ext => ?_⟩
  · rw [← h]
    exact List.takeWhile_append_dropWhile.symm
  · rw [skipSpace, List.dropWhile_append_of_pos hblanks, List.dropWhile_cons_of_neg hc]

theorem stops_of_blanks {blanks : List Char} (h : ∀ c ∈ blanks, isSpace c = true) {ext : List Char}
    (hext : Stops ext) : Stops (blanks ++ ext) := by
  cases blanks with
  | nil => exact hext
  | cons c blanks =>
    have hc := h c List.mem_cons_self
    simp only [isSpace, Bool.or_eq_true, beq_iff_eq] at hc
    rcases hc with ((rfl | rfl) | rfl) | rfl <;> exact ⟨rfl, by decide, by decide, by decide⟩

/-! ## What each scan does, by the character it meets -/

/-- Makes a container of what is inside it, if it may be nested at this depth. -/
def contain {α : Type} (depth : Nat) (make : α → Bool → Json) (s : Scan α) : Scan Json :=
  if depth = 0 then tooDeep s else (make s.1 s.2.isSome, s.2)

/-- Reads the value that begins with a character. -/
def valueFrom (fuel depth : Nat) (c : Char) (tail : List Char) : Scan Json :=
  if c = '"' then leaf ofPieces (scanString? tail)
  else if c = '[' then contain depth array (scanItems fuel (depth - 1) tail)
  else if c = '\x7b' then contain depth object (scanMembers fuel (depth - 1) tail)
  else if c = 'n' then word "ull".toList null tail
  else if c = 't' then word "rue".toList (bool true) tail
  else if c = 'f' then word "alse".toList (bool false) tail
  else leaf ofNumeral (scanNumeral? (c :: tail))

theorem scanValue_eq (fuel depth : Nat) {cs tail : List Char} {c : Char}
    (h : skipSpace cs = c :: tail) :
    scanValue (fuel + 1) depth cs = valueFrom fuel depth c tail := by
  rw [scanValue, h, valueFrom]
  split <;> simp_all [contain]

theorem scanItems_eq (fuel depth : Nat) {cs tail : List Char} {c : Char}
    (h : skipSpace cs = c :: tail) :
    scanItems (fuel + 1) depth cs =
      if c = ']' then ([], some tail) else scanItem fuel depth (c :: tail) := by
  rw [scanItems, h]
  split <;> simp_all

theorem scanMembers_eq (fuel depth : Nat) {cs tail : List Char} {c : Char}
    (h : skipSpace cs = c :: tail) :
    scanMembers (fuel + 1) depth cs =
      if c = '\x7d' then ([], some tail) else scanMember fuel depth (c :: tail) := by
  rw [scanMembers, h]
  split <;> simp_all

/-- An item or member, made of a value, and those behind it up to the closing bracket. -/
def chain {α : Type} (close : Char) (make : Json → α) (again : List Char → Scan (List α)) :
    Scan Json → Scan (List α)
  | (value, none) => ([make value], none)
  | (value, some rest) =>
    match skipSpace rest with
    | [] => ([make value], none)
    | c :: tail =>
      if c = close then ([make value], some tail)
      else if c = ',' then (make value :: (again tail).1, (again tail).2)
      else ([make value], none)

theorem scanItem_eq (fuel depth : Nat) (cs : List Char) :
    scanItem (fuel + 1) depth cs =
      chain ']' id (scanItem fuel depth) (scanValue fuel depth cs) := by
  rw [scanItem]
  dsimp only
  rcases scanValue fuel depth cs with ⟨item, _ | rest⟩
  · rfl
  · simp only [chain]
    rcases skipSpace rest with _ | ⟨c, tail⟩
    · rfl
    · split <;> simp_all

theorem scanMember_eq (fuel depth : Nat) {cs spelling colon text : List Char} {pieces : List Piece}
    (hquote : skipSpace cs = '"' :: spelling) (hkey : scanString? spelling = some (pieces, colon))
    (hcolon : skipSpace colon = ':' :: text) :
    scanMember (fuel + 1) depth cs =
      chain '\x7d' (fun value => (keyOfPieces pieces, value)) (scanMember fuel depth)
        (scanValue fuel depth text) := by
  rw [scanMember, hquote]
  simp only [hkey, hcolon]
  rcases scanValue fuel depth text with ⟨value, _ | rest⟩
  · rfl
  · simp only [chain]
    rcases skipSpace rest with _ | ⟨c, tail⟩
    · rfl
    · split <;> simp_all

/-- Members that end begin with a key and a colon. -/
theorem exists_of_scanMember {fuel depth : Nat} {cs out : List Char} {members : List Member}
    (h : scanMember (fuel + 1) depth cs = (members, some out)) :
    ∃ spelling pieces colon text, skipSpace cs = '"' :: spelling ∧
      scanString? spelling = some (pieces, colon) ∧ skipSpace colon = ':' :: text := by
  rw [scanMember] at h
  split at h
  · next spelling hquote =>
    split at h
    · cases h
    · next pieces colon hkey =>
      split at h
      · next text hcolon => exact ⟨spelling, pieces, colon, text, hquote, hkey, hcolon⟩
      · cases h
  · cases h

/-! ## All scans together -/

/-- A scan takes up these characters and gives this result, whatever stands behind them. Beside
three for each character it needs some fuel of its own. -/
def Takes {α : Type} (scan : Nat → List Char → Scan α) (more : Nat) (used : List Char) (a : α) :
    Prop :=
  ∀ fuel ext, 3 * used.length + more ≤ fuel → Stops ext → scan fuel (used ++ ext) = (a, some ext)

/-- Where a scan with this fuel ends, it has taken up characters that give the same result
anywhere. -/
def Locates {α : Type} (scan : Nat → List Char → Scan α) (more fuel : Nat) : Prop :=
  ∀ cs a out, scan fuel cs = (a, some out) →
    ∃ used, used ≠ [] ∧ cs = used ++ out ∧ Takes scan more used a

/-- All five scans with this fuel, at any depth. -/
structure Located (fuel : Nat) : Prop where
  value : ∀ depth, Locates (scanValue · depth ·) 0 fuel
  items : ∀ depth, Locates (scanItems · depth ·) 2 fuel
  item : ∀ depth, Locates (scanItem · depth ·) 1 fuel
  members : ∀ depth, Locates (scanMembers · depth ·) 2 fuel
  member : ∀ depth, Locates (scanMember · depth ·) 1 fuel

theorem leaf_some {α : Type} {make : α → Json} {scanned : Option (α × List Char)} {j : Json}
    {out : List Char} (h : leaf make scanned = (j, some out)) :
    ∃ a, scanned = some (a, out) ∧ make a = j := by
  unfold leaf at h
  split at h
  · cases h
    exact ⟨_, rfl, rfl⟩
  · cases h

/-- A container that ends is told by what is inside it. -/
theorem contain_some {α : Type} {depth : Nat} {make : α → Bool → Json} {s : Scan α} {j : Json}
    {out : List Char} (h : contain depth make s = (j, some out)) :
    s.2 = some out ∧ ∀ ext, contain depth make (s.1, some ext) = (j, some ext) := by
  obtain ⟨a, rest⟩ := s
  unfold contain tooDeep at *
  split at h <;> cases h <;> exact ⟨rfl, fun ext => by simp [*]⟩

theorem contain_local {α : Type} {depth fuel : Nat} {make : α → Bool → Json}
    {scan : Nat → List Char → Scan α} (ih : Locates scan 2 fuel) {tail out : List Char} {j : Json}
    (h : contain depth make (scan fuel tail) = (j, some out)) :
    ∃ used, tail = used ++ out ∧
      Takes (fun fuel cs => contain depth make (scan fuel cs)) 2 used j := by
  obtain ⟨hout, hagain⟩ := contain_some h
  obtain ⟨used, -, rfl, hused⟩ := ih tail _ out (Prod.ext rfl hout)
  refine ⟨used, rfl, fun fuel' ext hfuel hext => ?_⟩
  dsimp only
  rw [hused fuel' ext hfuel hext]
  exact hagain ext

theorem word_takes {w tail out : List Char} {j j' : Json} (h : word w j tail = (j', some out)) :
    ∃ used, tail = used ++ out ∧ Takes (fun _ cs => word w j cs) 2 used j' := by
  obtain ⟨hcs, hlocal⟩ := word_local h
  exact ⟨w, hcs, fun _ ext _ _ => hlocal ext⟩

/-- A value with its first character given. -/
theorem valueFrom_local {fuel : Nat} (ih : Located fuel) {depth : Nat} {c : Char}
    {tail out : List Char} {j : Json} (h : valueFrom fuel depth c tail = (j, some out)) :
    ∃ used, tail = used ++ out ∧ Takes (valueFrom · depth c ·) 2 used j := by
  by_cases hquote : c = '"'
  · subst hquote
    have hleaf : leaf ofPieces (scanString? tail) = (j, some out) := h
    obtain ⟨pieces, hscan, hj⟩ := leaf_some hleaf
    obtain ⟨used, rfl, hused⟩ := scanString?_local hscan
    refine ⟨used, rfl, fun fuel' ext _ _ => ?_⟩
    show leaf ofPieces (scanString? (used ++ ext)) = _
    rw [hused, leaf, hj]
  by_cases hbracket : c = '['
  · subst hbracket
    exact contain_local (ih.items (depth - 1)) h
  by_cases hbrace : c = '\x7b'
  · subst hbrace
    exact contain_local (ih.members (depth - 1)) h
  by_cases hn : c = 'n'
  · subst hn
    exact word_takes h
  by_cases ht : c = 't'
  · subst ht
    exact word_takes h
  by_cases hf : c = 'f'
  · subst hf
    exact word_takes h
  have hnumeral : ∀ fuel cs,
      valueFrom fuel depth c cs = leaf ofNumeral (scanNumeral? (c :: cs)) := by
    intro fuel cs
    simp only [valueFrom, if_neg hquote, if_neg hbracket, if_neg hbrace, if_neg hn, if_neg ht,
      if_neg hf]
  rw [hnumeral] at h
  obtain ⟨n, hscan, hj⟩ := leaf_some h
  obtain ⟨d, ds, heq, hlocal⟩ := scanNumeral?_local hscan
  cases heq
  refine ⟨ds, rfl, fun fuel' ext _ hext => ?_⟩
  dsimp only
  rw [hnumeral, ← List.cons_append, hlocal ext hext, leaf, hj]

/-- The blanks in front of a character and the character itself are taken up with what follows. -/
theorem takes_blanks {α : Type} {scan : Nat → List Char → Scan α} {more : Nat}
    {blanks used : List Char} {c : Char} {a : α} (behind : Nat → List Char → Scan α)
    (hscan : ∀ fuel ext, scan (fuel + 1) (blanks ++ c :: ext) = behind fuel ext)
    (h : Takes behind (more + 2) used a) : Takes scan more (blanks ++ c :: used) a := by
  intro fuel ext hfuel hext
  rw [List.length_append, List.length_cons] at hfuel
  obtain ⟨fuel, rfl⟩ : ∃ k, fuel = k + 1 := ⟨fuel - 1, by omega⟩
  rw [List.append_assoc, List.cons_append, hscan]
  exact h fuel ext (by omega) hext

theorem value_local {fuel : Nat} (ih : Located fuel) (depth : Nat) :
    Locates (scanValue · depth ·) 0 (fuel + 1) := by
  intro cs j out h
  dsimp only at h
  cases hskip : skipSpace cs with
  | nil =>
    rw [scanValue, hskip] at h
    cases h
  | cons c tail =>
    rw [scanValue_eq fuel depth hskip] at h
    obtain ⟨blanks, rfl, -, hagain⟩ := skipSpace_local hskip
    obtain ⟨used, rfl, hused⟩ := valueFrom_local ih h
    refine ⟨blanks ++ c :: used, by simp, by simp, takes_blanks (valueFrom · depth c ·) ?_ hused⟩
    exact fun fuel' ext => scanValue_eq fuel' depth (hagain ext)

/-- Items or members take up their values and what stands between them. -/
theorem chain_local {α : Type} {fuel : Nat} {close : Char} {make : Json → α}
    {scan : Nat → List Char → Scan (List α)} {depth : Nat} {text out : List Char} {all : List α}
    (ihvalue : Locates (scanValue · depth ·) 0 fuel) (ih : Locates scan 1 fuel)
    (hclose : ∀ ext, Stops (close :: ext))
    (h : chain close make (scan fuel) (scanValue fuel depth text) = (all, some out)) :
    ∃ used, used ≠ [] ∧ text = used ++ out ∧
      Takes (fun fuel cs => chain close make (scan fuel) (scanValue fuel depth cs)) 0 used all := by
  rcases hvalue : scanValue fuel depth text with ⟨value, _ | rest⟩
  · rw [hvalue] at h
    cases h
  obtain ⟨used, -, rfl, hused⟩ := ihvalue text value rest hvalue
  simp only [hvalue, chain] at h
  rcases hrest : skipSpace rest with _ | ⟨c, tail⟩
  · rw [hrest] at h
    cases h
  obtain ⟨blanks, rfl, hblanks, hagain⟩ := skipSpace_local hrest
  simp only [hrest] at h
  -- what stands behind the value cannot go on a numeral, so the value is the same anywhere
  have hvalue' : ∀ fuel' ext, 3 * used.length ≤ fuel' → (∀ ext, Stops (c :: ext)) →
      scanValue fuel' depth (used ++ (blanks ++ c :: ext)) = (value, some (blanks ++ c :: ext)) :=
    fun fuel' ext hfuel hc => hused fuel' _ hfuel (stops_of_blanks hblanks (hc ext))
  by_cases hc : c = close
  · rw [if_pos hc] at h
    cases h
    refine ⟨used ++ (blanks ++ [c]), by simp, by simp, fun fuel' ext hfuel hext => ?_⟩
    rw [List.length_append] at hfuel
    simp only [List.append_assoc, List.singleton_append,
      hvalue' fuel' ext (by omega) (hc ▸ hclose), chain, hagain, if_pos hc]
  rw [if_neg hc] at h
  by_cases hcomma : c = ','
  · rw [if_pos hcomma] at h
    rcases hmore : scan fuel tail with ⟨more, rest'⟩
    rw [hmore] at h
    cases h
    obtain ⟨used', -, rfl, hused'⟩ := ih tail more out hmore
    refine ⟨used ++ (blanks ++ c :: used'), by simp, by simp, fun fuel' ext hfuel hext => ?_⟩
    rw [List.length_append, List.length_append, List.length_cons] at hfuel
    have hstops : ∀ ext, Stops (c :: ext) := fun ext => by
      subst hcomma
      exact ⟨rfl, by decide, by decide, by decide⟩
    simp only [List.append_assoc, List.cons_append, hvalue' fuel' _ (by omega) hstops, chain,
      hagain, if_neg hc, if_pos hcomma, hused' fuel' ext (by omega) hext]
  · rw [if_neg hcomma] at h
    cases h

theorem item_local {fuel : Nat} (ih : Located fuel) (depth : Nat) :
    Locates (scanItem · depth ·) 1 (fuel + 1) := by
  intro cs items out h
  dsimp only at h
  rw [scanItem_eq] at h
  obtain ⟨used, hne, rfl, hused⟩ := chain_local (ih.value depth) (ih.item depth)
    (fun _ => ⟨rfl, by decide, by decide, by decide⟩) h
  refine ⟨used, hne, rfl, fun fuel' ext hfuel hext => ?_⟩
  obtain ⟨fuel', rfl⟩ : ∃ k, fuel' = k + 1 := ⟨fuel' - 1, by omega⟩
  dsimp only
  rw [scanItem_eq]
  exact hused fuel' ext (by omega) hext

theorem member_local {fuel : Nat} (ih : Located fuel) (depth : Nat) :
    Locates (scanMember · depth ·) 1 (fuel + 1) := by
  intro cs members out h
  obtain ⟨spelling, pieces, colon, text, hquote, hkey, hcolon⟩ := exists_of_scanMember h
  dsimp only at h
  rw [scanMember_eq fuel depth hquote hkey hcolon] at h
  obtain ⟨used, hne, rfl, hused⟩ := chain_local (ih.value depth) (ih.member depth)
    (fun _ => ⟨rfl, by decide, by decide, by decide⟩) h
  obtain ⟨blanks, rfl, -, hagain⟩ := skipSpace_local hquote
  obtain ⟨spelled, rfl, hspelled⟩ := scanString?_local hkey
  obtain ⟨blanks', rfl, -, hagain'⟩ := skipSpace_local hcolon
  refine ⟨blanks ++ '"' :: (spelled ++ (blanks' ++ ':' :: used)), by simp, by simp,
    fun fuel' ext hfuel hext => ?_⟩
  simp only [List.length_append, List.length_cons] at hfuel
  obtain ⟨fuel', rfl⟩ : ∃ k, fuel' = k + 1 := ⟨fuel' - 1, by omega⟩
  simp only [List.append_assoc, List.cons_append]
  rw [scanMember_eq fuel' depth (hagain _) (hspelled _) (hagain' _)]
  exact hused fuel' ext (by omega) hext

/-- What is inside a container ends at once, or is items or members up to the end. -/
theorem inside_local {α : Type} {outer inner : Nat → List Char → Scan (List α)} {close : Char}
    {fuel : Nat} (ih : Locates inner 1 fuel)
    (hnil : ∀ cs, skipSpace cs = [] → outer (fuel + 1) cs = inner fuel [])
    (hcons : ∀ fuel cs c tail, skipSpace cs = c :: tail →
      outer (fuel + 1) cs = if c = close then ([], some tail) else inner fuel (c :: tail)) :
    Locates outer 2 (fuel + 1) := by
  intro cs all out h
  rcases hskip : skipSpace cs with _ | ⟨c, tail⟩
  · rw [hnil cs hskip] at h
    obtain ⟨used, hne, hused, -⟩ := ih [] all out h
    exact absurd (List.append_eq_nil_iff.mp hused.symm).1 hne
  rw [hcons fuel cs c tail hskip] at h
  obtain ⟨blanks, rfl, -, hagain⟩ := skipSpace_local hskip
  by_cases hclose : c = close
  · rw [if_pos hclose] at h
    cases h
    refine ⟨blanks ++ [c], by simp, by simp,
      takes_blanks (fun _ cs => ([], some cs)) (fun fuel' ext => ?_) fun _ _ _ _ => rfl⟩
    exact (hcons fuel' _ c _ (hagain ext)).trans (if_pos hclose)
  · rw [if_neg hclose] at h
    obtain ⟨used, hne, hcs, hused⟩ := ih (c :: tail) all out h
    obtain ⟨d, used, rfl⟩ := List.exists_cons_of_ne_nil hne
    cases hcs
    refine ⟨blanks ++ c :: used, by simp, by simp,
      takes_blanks (fun fuel cs => inner fuel (c :: cs)) (fun fuel' ext => ?_) ?_⟩
    · exact (hcons fuel' _ c _ (hagain ext)).trans (if_neg hclose)
    · intro fuel' ext hfuel hext
      exact hused fuel' ext (by rw [List.length_cons]; omega) hext

theorem located (fuel : Nat) : Located fuel := by
  induction fuel with
  | zero =>
    constructor
    all_goals
      intro depth cs a out h
      cases h
  | succ fuel ih =>
    constructor
    case value => exact value_local ih
    case items =>
      exact fun depth => inside_local (ih.item depth) (fun cs h => by rw [scanItems, h])
        fun fuel cs c tail => scanItems_eq fuel depth
    case item => exact item_local ih
    case members =>
      exact fun depth => inside_local (ih.member depth) (fun cs h => by rw [scanMembers, h])
        fun fuel cs c tail => scanMembers_eq fuel depth
    case member => exact member_local ih

/-- A value is read from the characters it takes up, whatever stands behind them. -/
theorem scanValue_local {fuel depth : Nat} {cs rest : List Char} {j : Json}
    (h : scanValue fuel depth cs = (j, some rest)) :
    ∃ used, cs = used ++ rest ∧ ∀ fuel' ext, 3 * used.length ≤ fuel' → Stops ext →
      scanValue fuel' depth (used ++ ext) = (j, some ext) := by
  obtain ⟨used, -, hcs, hused⟩ := (located fuel).value depth cs j rest h
  exact ⟨used, hcs, hused⟩

end LoginAdmission.Json
