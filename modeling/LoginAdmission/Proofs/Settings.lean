/-
  Settings as texts.

  A variable that is not set stands for its standard value, and one that is set for the unsigned
  number of 64 bits that its text is, up to the blanks around it. The variables make settings when
  each of them stands for a number and the interval for one that is not zero. Of several bad
  variables the first in `Settings.standards` is reported, and a zero interval only when none is
  bad.

  Main statement: `settings_law`, for all texts of all variables. Either all variables stand for
  numbers or there is a first bad one (`good_or_split`); the numbers are what is loaded
  (`Numbers.load`), and the first bad variable is what is reported (`load_of_bad`).
-/
import LoginAdmission.Proofs.Text.Blanks
import LoginAdmission.Proofs.Text.Numbers
import LoginAdmission.Settings

namespace LoginAdmission

open Text

namespace Settings

/-- The numbers of settings, each with the variable that it is read from, in the order in which the
variables are looked at. -/
def assignments (limits : Thresholds) (seconds : UInt64) : List (String × UInt64) :=
  [("BRUTEGUARD_LIMIT_LOGIN", limits.login), ("BRUTEGUARD_LIMIT_PASSWORD", limits.password),
    ("BRUTEGUARD_LIMIT_ADDRESS", limits.address), ("BRUTEGUARD_RESET_INTERVAL_SECS", seconds)]

/-- The variables, each with its standard value. -/
def standards : List (String × UInt64) := assignments ⟨10, 100, 1000⟩ 60

/-- A text is the number, up to the blanks around it. -/
def Spells (text : String) (n : UInt64) : Prop := ∃ t, Trims text.toList t ∧ Unsigned t n.toNat

/-- What a variable stands for. -/
inductive Means (lookup : String → Option String) (name : String) (standard : UInt64) :
    UInt64 → Prop
  | unset (h : lookup name = none) : Means lookup name standard standard
  | set {text : String} {n : UInt64} (h : lookup name = some text) (hn : Spells text n) :
      Means lookup name standard n

/-- A variable is set to a text that is no number of 64 bits. -/
def Bad (lookup : String → Option String) (name text : String) : Prop :=
  lookup name = some text ∧ ∀ n, ¬ Spells text n

/-- The numbers that the variables stand for. -/
structure Numbers (lookup : String → Option String) (limits : Thresholds) (seconds : UInt64) :
    Prop where
  login : Means lookup "BRUTEGUARD_LIMIT_LOGIN" 10 limits.login
  password : Means lookup "BRUTEGUARD_LIMIT_PASSWORD" 100 limits.password
  address : Means lookup "BRUTEGUARD_LIMIT_ADDRESS" 1000 limits.address
  seconds : Means lookup "BRUTEGUARD_RESET_INTERVAL_SECS" 60 seconds

/-- Why the variables make no settings. -/
inductive Refused (lookup : String → Option String) : SettingsError → Prop
  | invalidNumber {before behind : List (String × UInt64)} {name text : String}
      {standard : UInt64} (split : standards = before ++ (name, standard) :: behind)
      (good : ∀ v ∈ before, ∃ n, Means lookup v.1 v.2 n) (bad : Bad lookup name text) :
      Refused lookup (.invalidNumber name text)
  | zeroInterval (good : ∀ v ∈ standards, ∃ n, Means lookup v.1 v.2 n)
      (h : Means lookup "BRUTEGUARD_RESET_INTERVAL_SECS" 60 0) : Refused lookup .zeroInterval

end Settings

/-- What variables make of the settings. -/
structure SettingsLaw (lookup : String → Option String) : Prop where
  /-- The settings are the numbers that the variables stand for, the interval in whole seconds. -/
  loaded : ∀ s, Settings.load lookup = .ok s ↔
    Settings.Numbers lookup s.thresholds s.interval.seconds ∧ s.interval.seconds ≠ 0 ∧
      s.interval.nanoseconds = 0
  /-- There are settings just when all variables that are set are numbers and the interval is not
  zero. -/
  succeeds : (∃ s, Settings.load lookup = .ok s) ↔
    (∀ v ∈ Settings.standards, ∀ text, lookup v.1 = some text → ∃ n, Settings.Spells text n) ∧
      ¬ Settings.Means lookup "BRUTEGUARD_RESET_INTERVAL_SECS" 60 0
  /-- All else is refused, for the reason that comes first. -/
  refused : ∀ e, Settings.load lookup = .error e ↔ Settings.Refused lookup e
  /-- No other variable matters. -/
  ignored : ∀ lookup', (∀ v ∈ Settings.standards, lookup' v.1 = lookup v.1) →
    Settings.load lookup' = Settings.load lookup
  /-- Limits and an interval that are written in decimal are read back, with any blanks around
  them. -/
  written : ∀ limits seconds, seconds ≠ 0 →
    (∀ v ∈ Settings.assignments limits seconds, ∃ front back, IsBlanks front ∧ IsBlanks back ∧
      lookup v.1 = some (String.ofList (front ++ numeral v.2.toNat ++ back))) →
    Settings.load lookup = .ok ⟨limits, ⟨seconds, 0⟩⟩

namespace Settings

variable {lookup : String → Option String}

/-! ## One variable -/

/-- Which number a text is. -/
theorem spells_iff {text : String} {n : UInt64} :
    Spells text n ↔ unsigned? wordBound (trim text.toList) = some n.toNat := by
  rw [unsigned_eq_some_iff]
  constructor
  · rintro ⟨t, htrims, hn⟩
    rw [trim_eq_iff.mpr htrims]
    exact ⟨hn, n.toNat_lt⟩
  · exact fun h => ⟨_, trims_trim _, h.1⟩

/-- A text is a number of 64 bits, or no number is read from it. -/
theorem exists_spells_or (text : String) :
    (∃ n, Spells text n) ∨ unsigned? wordBound (trim text.toList) = none := by
  cases h : unsigned? wordBound (trim text.toList) with
  | none => exact .inr rfl
  | some n =>
    have hn : (UInt64.ofNat n).toNat = n :=
      UInt64.toNat_ofNat_of_lt' (unsigned_eq_some_iff.mp h).2
    exact .inl ⟨UInt64.ofNat n, spells_iff.mpr (by rw [h, hn])⟩

theorem readNumber_of_spells {name text : String} {standard n : UInt64}
    (h : lookup name = some text) (hn : Spells text n) :
    readNumber lookup name standard = .ok n := by
  simp only [readNumber, h, spells_iff.mp hn, UInt64.ofNat_toNat]

theorem readNumber_of_bad {name text : String} {standard : UInt64} (h : Bad lookup name text) :
    readNumber lookup name standard = .error (.invalidNumber name text) := by
  obtain ⟨hset, hbad⟩ := h
  have hnone := (exists_spells_or text).resolve_left fun ⟨n, hn⟩ => hbad n hn
  simp only [readNumber, hset, hnone]

/-- A variable stands for a number, or it is set to a text that is none. -/
theorem means_or_bad (lookup : String → Option String) (name : String) (standard : UInt64) :
    (∃ n, Means lookup name standard n) ∨ ∃ text, Bad lookup name text := by
  cases h : lookup name with
  | none => exact .inl ⟨standard, .unset h⟩
  | some text =>
    by_cases hn : ∃ n, Spells text n
    · obtain ⟨n, hn⟩ := hn
      exact .inl ⟨n, .set h hn⟩
    · exact .inr ⟨text, h, fun n hspells => hn ⟨n, hspells⟩⟩

theorem Means.read {name : String} {standard n : UInt64} (h : Means lookup name standard n) :
    readNumber lookup name standard = .ok n := by
  cases h with
  | unset h => simp only [readNumber, h]
  | set h hn => exact readNumber_of_spells h hn

/-- A variable stands for one number only. -/
theorem Means.unique {name : String} {standard n m : UInt64} (hn : Means lookup name standard n)
    (hm : Means lookup name standard m) : n = m :=
  Except.ok.inj (hn.read.symm.trans hm.read)

theorem exists_means_iff {name : String} {standard : UInt64} :
    (∃ n, Means lookup name standard n) ↔
      ∀ text, lookup name = some text → ∃ n, Spells text n := by
  constructor
  · rintro ⟨n, hn⟩ text htext
    cases hn with
    | unset h =>
      rw [h] at htext
      cases htext
    | set h hn =>
      rw [h] at htext
      cases htext
      exact ⟨n, hn⟩
  · intro h
    refine (means_or_bad lookup name standard).resolve_right ?_
    rintro ⟨text, hset, hbad⟩
    obtain ⟨n, hn⟩ := h text hset
    exact hbad n hn

/-- A number in decimal is that number, with any blanks around it. -/
theorem spells_decimal {front back : List Char} (hfront : IsBlanks front) (hback : IsBlanks back)
    (n : UInt64) : Spells (String.ofList (front ++ numeral n.toNat ++ back)) n := by
  refine ⟨numeral n.toNat, ?_, unsigned_numeral _⟩
  rw [String.toList_ofList]
  exact trims_around hfront hback (unbroken_numeral _)

/-! ## All variables -/

/-- All of several variables stand for numbers, or there is a first bad one. -/
theorem good_or_split (lookup : String → Option String) (vs : List (String × UInt64)) :
    (∀ v ∈ vs, ∃ n, Means lookup v.1 v.2 n) ∨
      ∃ before behind name standard text, vs = before ++ (name, standard) :: behind ∧
        (∀ v ∈ before, ∃ n, Means lookup v.1 v.2 n) ∧ Bad lookup name text := by
  induction vs with
  | nil => exact .inl nofun
  | cons v vs ih =>
    rcases means_or_bad lookup v.1 v.2 with hv | ⟨text, hbad⟩
    · rcases ih with hvs | ⟨before, behind, name, standard, text, rfl, hbefore, hbad⟩
      · exact .inl (List.forall_mem_cons.mpr ⟨hv, hvs⟩)
      · exact .inr ⟨v :: before, behind, name, standard, text, rfl,
          List.forall_mem_cons.mpr ⟨hv, hbefore⟩, hbad⟩
    · exact .inr ⟨[], vs, v.1, v.2, text, rfl, nofun, hbad⟩

/-- Variables that all stand for numbers, by their names. -/
theorem numbers_of_good (good : ∀ v ∈ standards, ∃ n, Means lookup v.1 v.2 n) :
    ∃ limits seconds, Numbers lookup limits seconds := by
  simp only [standards, assignments, List.forall_mem_cons] at good
  obtain ⟨⟨l, hl⟩, ⟨p, hp⟩, ⟨a, ha⟩, ⟨s, hs⟩, -⟩ := good
  exact ⟨⟨l, p, a⟩, s, hl, hp, ha, hs⟩

theorem Numbers.good {limits : Thresholds} {seconds : UInt64} (h : Numbers lookup limits seconds) :
    ∀ v ∈ standards, ∃ n, Means lookup v.1 v.2 n := by
  simp only [standards, assignments, List.forall_mem_cons]
  exact ⟨⟨_, h.login⟩, ⟨_, h.password⟩, ⟨_, h.address⟩, ⟨_, h.seconds⟩, nofun⟩

/-- Four numbers make settings unless the interval is zero. -/
theorem Numbers.load {limits : Thresholds} {seconds : UInt64} (h : Numbers lookup limits seconds) :
    load lookup = make limits ⟨seconds, 0⟩ := by
  have hl : readLimit lookup .login = .ok limits.login := h.login.read
  have hp : readLimit lookup .password = .ok limits.password := h.password.read
  have ha : readLimit lookup .address = .ok limits.address := h.address.read
  have hs : readNumber lookup intervalVariable standardSeconds = .ok seconds := h.seconds.read
  simp only [Settings.load, hl, hp, ha, hs, Bind.bind, Except.bind]

/-- All variables are read before anything is made of them. -/
theorem load_eq (lookup : String → Option String) :
    load lookup = (standards.mapM fun v => readNumber lookup v.1 v.2).bind fun ns =>
      make ⟨ns.getD 0 0, ns.getD 1 0, ns.getD 2 0⟩ ⟨ns.getD 3 0, 0⟩ := by
  have hbind : ∀ {α β : Type} (x : Except SettingsError α) (f : α → Except SettingsError β),
      x.bind f = x >>= f := fun _ _ => rfl
  simp only [hbind, standards, assignments, List.mapM_cons, List.mapM_nil, bind_assoc, pure_bind]
  rfl

/-- Reading stops at the first bad variable. -/
theorem mapM_of_bad {before : List (String × UInt64)} {name text : String}
    (good : ∀ v ∈ before, ∃ n, Means lookup v.1 v.2 n) (bad : Bad lookup name text)
    (standard : UInt64) (behind : List (String × UInt64)) :
    (before ++ (name, standard) :: behind).mapM (fun v => readNumber lookup v.1 v.2) =
      .error (.invalidNumber name text) := by
  induction before with
  | nil =>
    rw [List.nil_append, List.mapM_cons, readNumber_of_bad bad]
    rfl
  | cons v before ih =>
    obtain ⟨⟨n, hn⟩, hbefore⟩ := List.forall_mem_cons.mp good
    rw [List.cons_append, List.mapM_cons, hn.read, ih hbefore]
    rfl

/-- The first bad variable is reported. -/
theorem load_of_bad {before behind : List (String × UInt64)} {name text : String}
    {standard : UInt64} (split : standards = before ++ (name, standard) :: behind)
    (good : ∀ v ∈ before, ∃ n, Means lookup v.1 v.2 n) (bad : Bad lookup name text) :
    load lookup = .error (.invalidNumber name text) := by
  rw [load_eq, split, mapM_of_bad good bad]
  rfl

theorem make_zero (limits : Thresholds) : make limits ⟨0, 0⟩ = .error .zeroInterval := rfl

theorem make_nonzero (limits : Thresholds) {seconds : UInt64} (h : seconds ≠ 0) :
    make limits ⟨seconds, 0⟩ = .ok ⟨limits, ⟨seconds, 0⟩⟩ := by
  rw [make, if_neg]
  simp [Interval.isZero, h]

/-! ## The settings -/

theorem load_eq_ok_iff (s : Settings) :
    load lookup = .ok s ↔ Numbers lookup s.thresholds s.interval.seconds ∧
      s.interval.seconds ≠ 0 ∧ s.interval.nanoseconds = 0 := by
  constructor
  · intro h
    rcases good_or_split lookup standards with good | ⟨_, _, _, _, _, split, good, bad⟩
    · obtain ⟨limits, seconds, hnumbers⟩ := numbers_of_good good
      rw [hnumbers.load] at h
      by_cases hzero : seconds = 0
      · rw [hzero, make_zero] at h
        cases h
      · rw [make_nonzero limits hzero] at h
        cases h
        exact ⟨hnumbers, hzero, rfl⟩
    · rw [load_of_bad split good bad] at h
      cases h
  · obtain ⟨limits, seconds, nanoseconds⟩ := s
    rintro ⟨hnumbers, hnonzero, rfl⟩
    exact hnumbers.load.trans (make_nonzero limits hnonzero)

theorem refused_of_load {e : SettingsError} (h : load lookup = .error e) : Refused lookup e := by
  rcases good_or_split lookup standards with good | ⟨_, _, _, _, _, split, good, bad⟩
  · obtain ⟨limits, seconds, hnumbers⟩ := numbers_of_good good
    rw [hnumbers.load] at h
    by_cases hzero : seconds = 0
    · rw [hzero, make_zero] at h
      cases h
      exact .zeroInterval good (hzero ▸ hnumbers.seconds)
    · rw [make_nonzero limits hzero] at h
      cases h
  · rw [load_of_bad split good bad] at h
    cases h
    exact .invalidNumber split good bad

theorem load_of_refused {e : SettingsError} (h : Refused lookup e) : load lookup = .error e := by
  cases h with
  | invalidNumber split good bad => exact load_of_bad split good bad
  | zeroInterval good hzero =>
    obtain ⟨limits, seconds, hnumbers⟩ := numbers_of_good good
    obtain rfl := hnumbers.seconds.unique hzero
    exact hnumbers.load.trans (make_zero limits)

theorem exists_load_iff : (∃ s, load lookup = .ok s) ↔
    (∀ v ∈ standards, ∀ text, lookup v.1 = some text → ∃ n, Spells text n) ∧
      ¬ Means lookup "BRUTEGUARD_RESET_INTERVAL_SECS" 60 0 := by
  constructor
  · rintro ⟨s, h⟩
    obtain ⟨hnumbers, hnonzero, -⟩ := (load_eq_ok_iff s).mp h
    exact ⟨fun v hv => exists_means_iff.mp (hnumbers.good v hv),
      fun hzero => hnonzero (hnumbers.seconds.unique hzero)⟩
  · rintro ⟨good, hzero⟩
    obtain ⟨limits, seconds, hnumbers⟩ :=
      numbers_of_good fun v hv => exists_means_iff.mpr (good v hv)
    have hnonzero : seconds ≠ 0 := fun h => hzero (h ▸ hnumbers.seconds)
    exact ⟨_, hnumbers.load.trans (make_nonzero limits hnonzero)⟩

theorem readNumber_congr {lookup' : String → Option String} {name : String}
    (h : lookup' name = lookup name) (standard : UInt64) :
    readNumber lookup' name standard = readNumber lookup name standard := by
  simp only [readNumber, h]

/-- Reading looks at nothing but the four variables. -/
theorem load_congr {lookup' : String → Option String}
    (h : ∀ v ∈ standards, lookup' v.1 = lookup v.1) : load lookup' = load lookup := by
  simp only [standards, assignments, List.forall_mem_cons] at h
  obtain ⟨hlogin, hpassword, haddress, hseconds, -⟩ := h
  simp only [load, readLimit, limitVariable, intervalVariable, readNumber_congr hlogin,
    readNumber_congr hpassword, readNumber_congr haddress, readNumber_congr hseconds]

end Settings

/-- The settings are read from the four variables, wherever each of them is a number. -/
theorem settings_law (lookup : String → Option String) : SettingsLaw lookup where
  loaded := Settings.load_eq_ok_iff
  succeeds := Settings.exists_load_iff
  refused _ := ⟨Settings.refused_of_load, Settings.load_of_refused⟩
  ignored _ := Settings.load_congr
  written limits seconds hnonzero h := by
    have hmeans : ∀ v ∈ Settings.assignments limits seconds, ∀ standard,
        Settings.Means lookup v.1 standard v.2 := by
      intro v hv standard
      obtain ⟨front, back, hfront, hback, hset⟩ := h v hv
      exact .set hset (Settings.spells_decimal hfront hback v.2)
    simp only [Settings.assignments, List.forall_mem_cons] at hmeans
    obtain ⟨hlogin, hpassword, haddress, hseconds, -⟩ := hmeans
    exact (Settings.load_eq_ok_iff _).mpr
      ⟨⟨hlogin 10, hpassword 100, haddress 1000, hseconds 60⟩, hnonzero, rfl⟩

/-- A limit at the largest word with leading zeros and blanks, and one that is just too large. -/
example :
    Settings.load
        (fun name => [("BRUTEGUARD_LIMIT_LOGIN", " +0018446744073709551615\n")].lookup name) =
      .ok ⟨⟨18446744073709551615, 100, 1000⟩, ⟨60, 0⟩⟩ ∧
    Settings.load
        (fun name => [("BRUTEGUARD_LIMIT_LOGIN", "18446744073709551616")].lookup name) =
      .error (.invalidNumber "BRUTEGUARD_LIMIT_LOGIN" "18446744073709551616") := by
  decide +kernel

end LoginAdmission
