/-
  Objects as they are written.

  An `ObjectText` is the text of an object taken apart: its members, each with the spelling of its
  key and the text of its value, and the blanks between the parts. The value of a member is what its
  text reads as on its own. Main statements: `ObjectText.read_text`, and in the other direction
  `JsonText.exists_objectText`, so that every text that reads as an object is one of these.
-/
import LoginAdmission.Proofs.Json.Locality

namespace LoginAdmission

namespace Json

/-- Reads a value that stands in an object, from its own characters. -/
def scanNested (cs : List Char) : Scan Json := scanValue (3 * cs.length) (depthLimit - 1) cs

/-- A member of an object as it is written: a key between quotes, a colon and a well-formed value,
with blanks around them. -/
structure MemberText where
  beforeKey : List Char
  /-- What stands behind the opening quote of the key, with the closing one. -/
  spelling : List Char
  beforeColon : List Char
  beforeValue : List Char
  value : List Char
  afterValue : List Char
  blank : ∀ c ∈ beforeKey ++ beforeColon ++ beforeValue ++ afterValue, isSpace c = true
  spelled : ∃ pieces, scanString? spelling = some (pieces, [])
  unpadded : ∀ c ∈ value.head?, isSpace c = false
  wellFormed : (scanNested value).2 = some []

namespace MemberText

/-- The key, unless half a surrogate pair stands in it. -/
def key (m : MemberText) : Option String :=
  (scanString? m.spelling).bind fun (pieces, _) => keyOfPieces pieces

/-- What a member reads as. -/
def member (m : MemberText) : Member := (m.key, (scanNested m.value).1)

/-- What stands behind the colon of a member. -/
def behindColon (m : MemberText) : List Char := m.beforeValue ++ (m.value ++ m.afterValue)

/-- The text of a member. -/
def text (m : MemberText) : List Char :=
  m.beforeKey ++ '"' :: (m.spelling ++ (m.beforeColon ++ ':' :: m.behindColon))

end MemberText

/-- The text of members with commas between them. -/
def membersText : List MemberText → List Char
  | [] => []
  | [m] => m.text
  | m :: next :: members => m.text ++ ',' :: membersText (next :: members)

end Json

open Json

/-- An object as it is written, with nothing but blanks around it. -/
structure ObjectText where
  before : List Char
  inside : List Char
  members : List MemberText
  after : List Char
  blank : ∀ c ∈ before ++ inside ++ after, isSpace c = true

/-- The text of an object. -/
def ObjectText.text (o : ObjectText) : String :=
  String.ofList
    (o.before ++ '\x7b' :: (o.inside ++ (membersText o.members ++ '\x7d' :: o.after)))

namespace Json

/-! ## Blanks in front -/

theorem skipSpace_append {blanks : List Char} (h : ∀ c ∈ blanks, isSpace c = true)
    (cs : List Char) : skipSpace (blanks ++ cs) = skipSpace cs :=
  List.dropWhile_append_of_pos h

theorem skipSpace_append_cons {blanks : List Char} (h : ∀ c ∈ blanks, isSpace c = true) {c : Char}
    (hc : isSpace c = false) (cs : List Char) : skipSpace (blanks ++ c :: cs) = c :: cs := by
  rw [skipSpace_append h, skipSpace, List.dropWhile_cons_of_neg (Bool.eq_false_iff.mp hc)]

theorem scanValue_congr (fuel depth : Nat) {cs cs' : List Char} (h : skipSpace cs = skipSpace cs') :
    scanValue fuel depth cs = scanValue fuel depth cs' := by
  cases fuel with
  | zero => rfl
  | succ fuel => rw [scanValue, scanValue, h]

theorem scanMember_congr (fuel depth : Nat) {cs cs' : List Char}
    (h : skipSpace cs = skipSpace cs') :
    scanMember fuel depth cs = scanMember fuel depth cs' := by
  cases fuel with
  | zero => rfl
  | succ fuel => rw [scanMember, scanMember, h]

theorem scanMembers_congr (fuel depth : Nat) {cs cs' : List Char}
    (h : skipSpace cs = skipSpace cs') :
    scanMembers fuel depth cs = scanMembers fuel depth cs' := by
  cases fuel with
  | zero => rfl
  | succ fuel => rw [scanMembers, scanMembers, h]

/-! ## From the parts to the value -/

namespace MemberText

variable (m : MemberText)

theorem scan_spelling (ext : List Char) :
    ∃ pieces, scanString? (m.spelling ++ ext) = some (pieces, ext) ∧
      keyOfPieces pieces = m.key := by
  obtain ⟨pieces, hspelled⟩ := m.spelled
  obtain ⟨used, hused, hlocal⟩ := scanString?_local hspelled
  rw [List.append_nil] at hused
  refine ⟨pieces, hused ▸ hlocal ext, ?_⟩
  rw [key, hspelled]
  rfl

/-- The value of a member is the one its own characters make. -/
theorem scan_value {fuel : Nat} (hfuel : 3 * m.value.length ≤ fuel) {ext : List Char}
    (hext : Stops ext) :
    scanValue fuel (depthLimit - 1) (m.beforeValue ++ (m.value ++ ext)) =
      (m.member.2, some ext) := by
  have hblanks : ∀ c ∈ m.beforeValue, isSpace c = true := fun c hc => m.blank c (by simp [hc])
  obtain ⟨used, hused, hlocal⟩ := scanValue_local (Prod.ext rfl m.wellFormed)
  rw [List.append_nil] at hused
  rw [scanValue_congr fuel _ (skipSpace_append hblanks _)]
  exact hused ▸ hlocal fuel ext (hused ▸ hfuel) hext

/-- A member is read up to the brace or the comma behind it. -/
theorem scan_text {fuel : Nat} (hfuel : 3 * m.value.length ≤ fuel) {c : Char}
    (hc : c = '\x7d' ∨ c = ',') (ext : List Char) :
    scanMember (fuel + 1) (depthLimit - 1) (m.text ++ c :: ext) =
      if c = '\x7d' then ([m.member], some ext)
      else (m.member :: (scanMember fuel (depthLimit - 1) ext).1,
        (scanMember fuel (depthLimit - 1) ext).2) := by
  have hends : isSpace c = false ∧ Stops (c :: ext) := by
    rcases hc with rfl | rfl <;> exact ⟨rfl, rfl, by decide, by decide, by decide⟩
  have hkeyBlanks : ∀ b ∈ m.beforeKey, isSpace b = true := fun b hb => m.blank b (by simp [hb])
  have hcolonBlanks : ∀ b ∈ m.beforeColon, isSpace b = true := fun b hb => m.blank b (by simp [hb])
  have hafterBlanks : ∀ b ∈ m.afterValue, isSpace b = true := fun b hb => m.blank b (by simp [hb])
  have htext : m.text ++ c :: ext = m.beforeKey ++ '"' :: (m.spelling ++ (m.beforeColon ++
      ':' :: (m.beforeValue ++ (m.value ++ (m.afterValue ++ c :: ext))))) := by
    simp [text, behindColon]
  obtain ⟨pieces, hspelled, hkey⟩ := m.scan_spelling
    (m.beforeColon ++ ':' :: (m.beforeValue ++ (m.value ++ (m.afterValue ++ c :: ext))))
  rw [htext, scanMember_eq fuel _ (skipSpace_append_cons hkeyBlanks rfl _) hspelled
    (skipSpace_append_cons hcolonBlanks rfl _),
    m.scan_value hfuel (stops_of_blanks hafterBlanks hends.2)]
  simp only [chain, skipSpace_append_cons hafterBlanks hends.1, hkey]
  rcases hc with rfl | rfl <;> rfl

end MemberText

theorem scanMember_membersText {members : List MemberText} (hne : members ≠ []) {fuel : Nat}
    (hfuel : 3 * (membersText members).length + 1 ≤ fuel) (ext : List Char) :
    scanMember fuel (depthLimit - 1) (membersText members ++ '\x7d' :: ext) =
      (members.map (·.member), some ext) := by
  induction members generalizing fuel with
  | nil => exact absurd rfl hne
  | cons m members ih =>
    have hlength : m.value.length ≤ m.text.length := by
      simp only [MemberText.text, MemberText.behindColon, List.length_append, List.length_cons]
      omega
    obtain ⟨fuel, rfl⟩ : ∃ k, fuel = k + 1 := ⟨fuel - 1, by omega⟩
    cases members with
    | nil =>
      have hone : 3 * m.text.length + 1 ≤ fuel + 1 := hfuel
      exact m.scan_text (by omega) (.inl rfl) ext
    | cons next members =>
      have hmore : membersText (m :: next :: members) =
          m.text ++ ',' :: membersText (next :: members) := rfl
      rw [hmore, List.length_append, List.length_cons] at hfuel
      rw [hmore, List.append_assoc, List.cons_append, m.scan_text (by omega) (.inr rfl),
        ih (List.cons_ne_nil _ _) (by omega)]
      rfl

theorem scanMembers_membersText (members : List MemberText) {fuel : Nat}
    (hfuel : 3 * (membersText members).length + 2 ≤ fuel) (ext : List Char) :
    scanMembers fuel (depthLimit - 1) (membersText members ++ '\x7d' :: ext) =
      (members.map (·.member), some ext) := by
  obtain ⟨fuel, rfl⟩ : ∃ k, fuel = k + 1 := ⟨fuel - 1, by omega⟩
  cases members with
  | nil => rfl
  | cons m members =>
    have hscan : scanMember fuel (depthLimit - 1) (membersText (m :: members) ++ '\x7d' :: ext) =
        ((m :: members).map (·.member), some ext) :=
      scanMember_membersText (List.cons_ne_nil m members) (by omega) ext
    have hblanks : ∀ b ∈ m.beforeKey, isSpace b = true := fun b hb => m.blank b (by simp [hb])
    obtain ⟨tail, htail⟩ : ∃ tail,
        membersText (m :: members) ++ '\x7d' :: ext = m.beforeKey ++ '"' :: tail := by
      cases members <;> exact ⟨_, by simp [membersText, MemberText.text]; rfl⟩
    have hskip : skipSpace (m.beforeKey ++ '"' :: tail) = '"' :: tail :=
      skipSpace_append_cons hblanks rfl tail
    rw [htail] at hscan ⊢
    rw [scanMembers_eq fuel _ hskip, if_neg (by decide), ← hscan]
    exact scanMember_congr fuel _ hskip.symm

end Json

/-- The members of an object as they read. -/
def ObjectText.json (o : ObjectText) : List Member := o.members.map (·.member)

/-- The text of an object reads as its members, each from its own characters. -/
theorem ObjectText.read_text (o : ObjectText) :
    JsonText.read o.text = ⟨.object o.json true, true⟩ := by
  have hbefore : ∀ b ∈ o.before, isSpace b = true := fun b hb => o.blank b (by simp [hb])
  have hinside : ∀ b ∈ o.inside, isSpace b = true := fun b hb => o.blank b (by simp [hb])
  have hafter : skipSpace o.after = [] :=
    List.dropWhile_eq_nil_iff.mpr fun b hb => o.blank b (by simp [hb])
  have hmembers : ∀ fuel, 3 * (membersText o.members).length + 2 ≤ fuel →
      scanMembers fuel (depthLimit - 1)
        (o.inside ++ (membersText o.members ++ '\x7d' :: o.after)) = (o.json, some o.after) := by
    intro fuel hfuel
    rw [scanMembers_congr fuel _ (skipSpace_append hinside _)]
    exact scanMembers_membersText o.members hfuel o.after
  have hvalue : ∀ fuel, 3 * (membersText o.members).length + 2 ≤ fuel →
      valueFrom fuel depthLimit '\x7b' (o.inside ++ (membersText o.members ++ '\x7d' :: o.after)) =
        (.object o.json true, some o.after) := by
    intro fuel hfuel
    show contain depthLimit object (scanMembers fuel (depthLimit - 1) _) = _
    rw [hmembers fuel hfuel]
    rfl
  unfold JsonText.read text
  rw [String.toList_ofList]
  dsimp only
  rw [scanValue_eq _ depthLimit (skipSpace_append_cons hbefore rfl _), hvalue _ ?_]
  · simp only [hafter, List.isEmpty_nil]
  · simp only [List.length_append, List.length_cons]
    omega

/-! ## From the value to the parts -/

namespace Json

/-- A container that ends is unreadable, or holds what is inside it. -/
theorem contain_value {α : Type} {depth : Nat} {make : α → Bool → Json} {s : Scan α} {j : Json}
    {out : List Char} (h : contain depth make s = (j, some out)) :
    j = unreadable ∨ j = make s.1 true := by
  obtain ⟨a, rest⟩ := s
  unfold contain tooDeep at h
  split at h <;> cases h
  · exact .inl rfl
  · exact .inr rfl

/-- A value that is an object begins with a brace. -/
theorem valueFrom_object {fuel depth : Nat} {c : Char} {tail out : List Char}
    {members : List Member} (h : valueFrom fuel depth c tail = (object members true, some out)) :
    c = '\x7b' ∧ scanMembers fuel (depth - 1) tail = (members, some out) := by
  have hword : ∀ {w : List Char} {j : Json}, word w j tail = (object members true, some out) →
      j = object members true := by
    intro w j hw
    unfold word at hw
    split at hw <;> cases hw
    rfl
  unfold valueFrom at h
  split at h
  · obtain ⟨pieces, -, hj⟩ := leaf_some h
    unfold ofPieces at hj
    split at hj <;> cases hj
  split at h
  · rcases contain_value h with hj | hj <;> cases hj
  split at h
  · next hc =>
    have hout := (contain_some h).1
    rcases contain_value h with hj | hj
    · cases hj
    · cases hj
      exact ⟨hc, Prod.ext rfl hout⟩
  split at h
  · cases hword h
  split at h
  · cases hword h
  split at h
  · cases hword h
  · obtain ⟨n, -, hj⟩ := leaf_some h
    unfold ofNumeral at hj
    split at hj <;> cases hj

/-- The value of a member is well formed on its own, without the blanks in front. -/
theorem exists_value {fuel : Nat} {text rest : List Char} {j : Json}
    (h : scanValue fuel (depthLimit - 1) text = (j, some rest)) :
    ∃ blanks value, text = blanks ++ (value ++ rest) ∧ (∀ c ∈ blanks, isSpace c = true) ∧
      (∀ c ∈ value.head?, isSpace c = false) ∧ scanNested value = (j, some []) := by
  obtain ⟨used, rfl, hused⟩ := scanValue_local h
  have halone := hused (3 * used.length) [] (Nat.le_refl _) trivial
  rw [List.append_nil] at halone
  cases hskip : skipSpace used with
  | nil =>
    cases used with
    | nil => cases halone
    | cons c used =>
      rw [List.length_cons, Nat.mul_succ, scanValue, hskip] at halone
      cases halone
  | cons c tail =>
    obtain ⟨blanks, rfl, hblanks, -⟩ := skipSpace_local hskip
    refine ⟨blanks, c :: tail, by simp, hblanks, ?_, ?_⟩
    · rintro d ⟨⟩
      exact isSpace_of_skipSpace hskip
    · rw [scanValue_congr _ _ (skipSpace_append hblanks _)] at halone
      obtain ⟨value, hvalue, hlocal⟩ := scanValue_local halone
      rw [List.append_nil] at hvalue
      have hnested := hlocal (3 * value.length) [] (Nat.le_refl _) trivial
      rw [List.append_nil] at hnested
      rw [hvalue]
      exact hnested

/-- A member that is read is made of its parts. -/
theorem exists_memberText {fuel : Nat} {cs out : List Char} {members : List Member}
    (h : scanMember fuel (depthLimit - 1) cs = (members, some out)) :
    ∃ texts : List MemberText, texts ≠ [] ∧ cs = membersText texts ++ '\x7d' :: out ∧
      texts.map (·.member) = members := by
  induction fuel generalizing cs members with
  | zero => cases h
  | succ fuel ih =>
    obtain ⟨spelling, pieces, colon, text, hquote, hkey, hcolon⟩ := exists_of_scanMember h
    rw [scanMember_eq fuel _ hquote hkey hcolon] at h
    obtain ⟨before, rfl, hbefore, -⟩ := skipSpace_local hquote
    obtain ⟨spelled, rfl, hspelled⟩ := scanString?_local hkey
    obtain ⟨blanks, rfl, hblanks, -⟩ := skipSpace_local hcolon
    rcases hvalue : scanValue fuel (depthLimit - 1) text with ⟨j, _ | rest⟩
    · rw [hvalue] at h
      cases h
    simp only [hvalue, chain] at h
    obtain ⟨padding, value, rfl, hpadding, hunpadded, hnested⟩ := exists_value hvalue
    rcases hrest : skipSpace rest with _ | ⟨c, tail⟩
    · rw [hrest] at h
      cases h
    obtain ⟨after, rfl, hafter, -⟩ := skipSpace_local hrest
    have hspelled' : scanString? spelled = some (pieces, []) := by simpa using hspelled []
    let m : MemberText :=
      { beforeKey := before, spelling := spelled, beforeColon := blanks, beforeValue := padding,
        value := value, afterValue := after, spelled := ⟨pieces, hspelled'⟩,
        unpadded := hunpadded, wellFormed := by rw [hnested]
        blank := by
          simp only [List.forall_mem_append]
          exact ⟨⟨⟨hbefore, hblanks⟩, hpadding⟩, hafter⟩ }
    have hmember : m.member = (keyOfPieces pieces, j) := by
      simp only [MemberText.member, MemberText.key, m, hspelled', hnested, Option.bind_some]
    simp only [hrest, ← hmember] at h
    split at h
    · next hc =>
      cases h
      refine ⟨[m], List.cons_ne_nil _ _, ?_, rfl⟩
      simp [membersText, MemberText.text, MemberText.behindColon, m, hc]
    split at h
    · next hc =>
      rcases hmore : scanMember fuel (depthLimit - 1) tail with ⟨more, rest'⟩
      rw [hmore] at h
      cases h
      obtain ⟨texts, hne, rfl, rfl⟩ := ih hmore
      obtain ⟨next, texts, rfl⟩ := List.exists_cons_of_ne_nil hne
      refine ⟨m :: next :: texts, List.cons_ne_nil _ _, ?_, rfl⟩
      simp [membersText, MemberText.text, MemberText.behindColon, m, hc]
    · cases h

end Json

/-- Every text that reads as an object, with nothing behind it, is the text of one. -/
theorem JsonText.exists_objectText {s : String} {members : List Member}
    (h : JsonText.read s = ⟨.object members true, true⟩) :
    ∃ o : ObjectText, o.text = s ∧ o.json = members := by
  unfold JsonText.read at h
  dsimp only at h
  rcases hvalue : scanValue (3 * s.toList.length + 3) depthLimit s.toList with ⟨j, _ | rest⟩
  · rw [hvalue] at h
    cases h
  simp only [hvalue, JsonText.mk.injEq] at h
  obtain ⟨rfl, hended⟩ := h
  rcases hskip : skipSpace s.toList with _ | ⟨c, tail⟩
  · rw [scanValue, hskip] at hvalue
    cases hvalue
  rw [scanValue_eq _ depthLimit hskip] at hvalue
  obtain ⟨rfl, hmembers⟩ := valueFrom_object hvalue
  obtain ⟨before, hs, hbefore, -⟩ := skipSpace_local hskip
  have hafter : ∀ b ∈ rest, isSpace b = true :=
    List.dropWhile_eq_nil_iff.mp (List.isEmpty_iff.mp hended)
  -- the blanks behind the brace, and what they end at
  rcases hinside : skipSpace tail with _ | ⟨c, tail'⟩
  · rw [scanMembers, hinside] at hmembers
    obtain ⟨texts, -, hnil, -⟩ := exists_memberText hmembers
    cases (List.append_eq_nil_iff.mp hnil.symm).2
  rw [scanMembers_eq _ _ hinside] at hmembers
  obtain ⟨inside, rfl, hblanks, -⟩ := skipSpace_local hinside
  have hblank : ∀ c ∈ before ++ inside ++ rest, isSpace c = true := by
    simp only [List.forall_mem_append]
    exact ⟨⟨hbefore, hblanks⟩, hafter⟩
  have hparts : ∃ texts : List MemberText,
      c :: tail' = membersText texts ++ '\x7d' :: rest ∧ texts.map (·.member) = members := by
    split at hmembers
    · next hc =>
      cases hmembers
      exact ⟨[], by rw [hc]; rfl, rfl⟩
    · obtain ⟨texts, -, hcs, hmembers⟩ := exists_memberText hmembers
      exact ⟨texts, hcs, hmembers⟩
  obtain ⟨texts, hcs, hjson⟩ := hparts
  refine ⟨⟨before, inside, texts, rest, hblank⟩, ?_, hjson⟩
  rw [ObjectText.text, ← hcs, ← hs, String.ofList_toList]

end LoginAdmission
