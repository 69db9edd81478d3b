/-
  The grammar of command lines.

  A verb is described as an operator looks it up: its spellings (`Verb.names`), the arguments it
  takes (`Verb.parameters`) and the command it gives with them (`Verb.Gives`). `LineReading` says
  from this what a line with given words is read as, with its faults in their order.

  Main statement: `line_law`. Every line is read as its words say, the commands that some line gives
  are those whose texts can be typed, and each of them is read from the line that spells it out.
-/
import Mathlib.Data.List.Basic
import LoginAdmission.Command.Line
import LoginAdmission.Proofs.Address.SubnetText

namespace LoginAdmission

open Text

/-! ## The verbs -/

/-- What an argument stands for. -/
inductive Parameter where
  | subnet
  | login
  | password
  | address
deriving DecidableEq

/-- What can be done with one subnet of a list. -/
inductive SubnetTask where
  | add
  | remove
  | isIn
deriving DecidableEq

/-- The verb of a task. -/
def SubnetTask.verb (list : AccessList) : SubnetTask → Verb
  | add => .add list
  | remove => .remove list
  | isIn => .isIn list

/-- The command of a task. -/
def SubnetTask.command (list : AccessList) (ip : String) (mask : UInt8) : SubnetTask → Command
  | add => .add list ip mask
  | remove => .remove list ip mask
  | isIn => .isListed list ip mask

namespace Verb

/-- The spellings of a verb, the long one first. -/
def names : Verb → List String
  | add .allow => ["whitelistadd", "wladd"]
  | add .deny => ["blacklistadd", "bladd"]
  | remove .allow => ["whitelistremove", "wlrm"]
  | remove .deny => ["blacklistremove", "blrm"]
  | isIn .allow => ["whitelistisin", "wlisin"]
  | isIn .deny => ["blacklistisin", "blisin"]
  | allIn .allow => ["whitelistallin", "wlallin"]
  | allIn .deny => ["blacklistallin", "blallin"]
  | clearLogin => ["clearbucketforlogin", "logincl"]
  | clearAddress => ["clearbucketforip", "ipcl"]
  | request => ["request"]
  | health => ["health"]

/-- The arguments that a verb takes. -/
def parameters : Verb → List Parameter
  | add _ | remove _ | isIn _ => [.subnet]
  | allIn _ | health => []
  | clearLogin => [.login]
  | clearAddress => [.address]
  | request => [.login, .password, .address]

end Verb

/-- The letters from A to Z as small letters, and all else as it is. -/
def folded (word : String) : String := String.ofList (word.toList.map Char.toLower)

/-- An argument that gives an address text and a mask: the text stands before the first slash, and
all that stands behind that is a number. -/
def SubnetArgument (argument ip : String) (mask : UInt8) : Prop :=
  ∃ digits, argument.toList = ip.toList ++ '/' :: digits ∧ '/' ∉ ip.toList ∧
    Unsigned digits mask.toNat

/-- The command that a verb gives with its arguments, which are taken as they are. -/
inductive Verb.Gives : Verb → List String → Command → Prop
  | subnet (task : SubnetTask) (list : AccessList) {argument ip : String} {mask : UInt8}
      (h : SubnetArgument argument ip mask) :
      Gives (task.verb list) [argument] (task.command list ip mask)
  | entries (list : AccessList) : Gives (.allIn list) [] (.listAll list)
  | login (login : String) : Gives .clearLogin [login] (.resetLogin login)
  | address (address : String) : Gives .clearAddress [address] (.resetAddress address)
  | attempt (login password address : String) :
      Gives .request [login, password, address] (.check ⟨login, password, address⟩)
  | health : Gives .health [] .health

/-! ## Lines -/

/-- The words of a line, in order. -/
def HasWords (line : String) (ws : List String) : Prop :=
  Spaced (ws.map String.toList) line.toList

/-- What a line with these words is read as. -/
inductive LineReading : List String → Except LineError Command → Prop
  | empty : LineReading [] (.error .empty)
  | unsupported {word : String} {arguments : List String} (h : ∀ v : Verb, folded word ∉ v.names) :
      LineReading (word :: arguments) (.error (.unsupported (folded word)))
  | badArgumentCount {word : String} {arguments : List String} {v : Verb}
      (hname : folded word ∈ v.names) (h : arguments.length ≠ v.parameters.length) :
      LineReading (word :: arguments)
        (.error (.badArgumentCount (folded word) v.parameters.length arguments.length))
  | badArgument {word argument : String} {v : Verb} (hname : folded word ∈ v.names)
      (htakes : v.parameters = [.subnet]) (h : ∀ ip mask, ¬ SubnetArgument argument ip mask) :
      LineReading [word, argument] (.error (.badArgument argument))
  | command {word : String} {arguments : List String} {v : Verb} {c : Command}
      (hname : folded word ∈ v.names) (h : v.Gives arguments c) :
      LineReading (word :: arguments) (.ok c)

namespace Command

/-- The verb of a command. -/
def verb : Command → Verb
  | check _ => .request
  | add list _ _ => .add list
  | remove list _ _ => .remove list
  | isListed list _ _ => .isIn list
  | listAll list => .allIn list
  | resetLogin _ => .clearLogin
  | resetAddress _ => .clearAddress
  | health => .health

/-- The arguments of a command, with masks in decimal. -/
def arguments : Command → List String
  | check a => [a.login, a.password, a.address]
  | add _ ip mask | remove _ ip mask | isListed _ ip mask => [ip ++ "/" ++ decimal mask.toNat]
  | resetLogin login => [login]
  | resetAddress address => [address]
  | listAll _ | health => []

/-- The line for a command under one of its verb's names, with single spaces. -/
def line (c : Command) (name : String) : String := " ".intercalate (name :: c.arguments)

/-- A command whose texts can be typed: each is a word, but that of a subnet's address may also be
empty, and holds no slash. -/
def Typeable : Command → Prop
  | check a => IsWord a.login.toList ∧ IsWord a.password.toList ∧ IsWord a.address.toList
  | add _ ip _ | remove _ ip _ | isListed _ ip _ => Unbroken ip.toList ∧ '/' ∉ ip.toList
  | resetLogin login => IsWord login.toList
  | resetAddress address => IsWord address.toList
  | listAll _ | health => True

end Command

/-- What command lines mean, and which commands have a line. -/
structure LineLaw : Prop where
  /-- A line is read as its words say. -/
  read : ∀ line result, Command.ofLine line = result ↔
    ∃ ws, HasWords line ws ∧ LineReading ws result
  /-- The commands that can be typed are those that some line gives. -/
  typeable : ∀ c, (∃ line, Command.ofLine line = .ok c) ↔ c.Typeable
  /-- Each of them is read from its own line, under either spelling of its verb. -/
  typed : ∀ c : Command, c.Typeable → ∀ name ∈ c.verb.names, Command.ofLine (c.line name) = .ok c

/-! ## The table of verbs -/

namespace Verb

variable {v : Verb} {name : String} {arguments : List String}

/-- The table holds each verb under its names. -/
theorem mem_spellings_iff : (name, v) ∈ spellings ↔ name ∈ v.names := by
  constructor
  · have hall : ∀ p ∈ spellings, p.1 ∈ p.2.names := by decide
    exact hall (name, v)
  · have hall : ∀ n ∈ v.names, (n, v) ∈ spellings := by
      cases v with
      | add list | remove list | isIn list | allIn list => cases list <;> decide
      | clearLogin | clearAddress | request | health => decide
    exact hall name

theorem lookup_of_mem_names (h : name ∈ v.names) : spellings.lookup name = some v := by
  have hall : ∀ p ∈ spellings, spellings.lookup p.1 = some p.2 := by decide
  exact hall (name, v) (mem_spellings_iff.mpr h)

theorem mem_names_of_lookup (h : spellings.lookup name = some v) : name ∈ v.names := by
  obtain ⟨front, back, hspellings, -⟩ := List.lookup_eq_some_iff.mp h
  exact mem_spellings_iff.mp (hspellings ▸ List.mem_append_right front List.mem_cons_self)

theorem lookup_of_not_mem_names (h : ∀ v : Verb, name ∉ v.names) :
    spellings.lookup name = none :=
  Option.eq_none_iff_forall_ne_some.mpr fun v hv => h v (mem_names_of_lookup hv)

theorem length_parameters (v : Verb) : v.parameters.length = v.arity := by
  cases v <;> rfl

end Verb

/-! ## Arguments -/

section

variable {argument ip : String} {mask : UInt8}

theorem subnetArgument_of_argument (h : SubnetArgument argument ip mask) :
    Verb.subnetArgument argument = .ok (ip, mask) := by
  obtain ⟨digits, hargument, hfirst, hdigits⟩ := h
  have hread : unsigned? byteBound digits = some mask.toNat :=
    unsigned_eq_some_iff.mpr ⟨hdigits, mask.toNat_lt⟩
  rw [Verb.subnetArgument, hargument, Subnet.splitSlash_append hfirst]
  dsimp only
  rw [hread, String.ofList_toList]
  dsimp only
  rw [UInt8.ofNat_toNat]

/-- Without a slash, or with no number up to 255 behind the first, the argument is refused. -/
theorem subnetArgument_of_no_argument (h : ∀ ip mask, ¬ SubnetArgument argument ip mask) :
    Verb.subnetArgument argument = .error (.badArgument argument) := by
  unfold Verb.subnetArgument
  by_cases hslash : '/' ∈ argument.toList
  · obtain ⟨before, behind, hargument, hfirst⟩ := List.eq_append_cons_of_mem hslash
    have hnone : unsigned? byteBound behind = none := by
      refine unsigned_eq_none_iff.mpr fun n hn number => ?_
      have hmask : (UInt8.ofNat n).toNat = n := UInt8.toNat_ofNat_of_lt' hn
      refine h (String.ofList before) (UInt8.ofNat n) ⟨behind, ?_, ?_, ?_⟩
      · rwa [String.toList_ofList]
      · rwa [String.toList_ofList]
      · rwa [hmask]
    rw [hargument, Subnet.splitSlash_append hfirst]
    dsimp only
    rw [hnone]
  · rw [Subnet.splitSlash_of_not_mem hslash]

end

namespace Verb

variable {v : Verb} {arguments : List String} {c : Command}

theorem exists_task (h : v.parameters = [.subnet]) :
    ∃ (task : SubnetTask) (list : AccessList), v = task.verb list := by
  cases v with
  | add list => exact ⟨.add, list, rfl⟩
  | remove list => exact ⟨.remove, list, rfl⟩
  | isIn list => exact ⟨.isIn, list, rfl⟩
  | allIn | clearLogin | clearAddress | request | health => cases h

theorem command_of_gives (h : v.Gives arguments c) (name : String) :
    v.command name arguments = .ok c := by
  cases h with
  | subnet task list h =>
    have hread := subnetArgument_of_argument h
    cases task <;> simp [SubnetTask.verb, SubnetTask.command, command, hread, Except.map]
  | entries | login | address | attempt | health => rfl

theorem command_of_length_ne (h : arguments.length ≠ v.parameters.length) (name : String) :
    v.command name arguments =
      .error (.badArgumentCount name v.parameters.length arguments.length) := by
  rw [length_parameters] at h ⊢
  unfold command
  split
  -- all branches but the last have arguments of the verb's own number
  case h_9 => rfl
  all_goals exact absurd rfl h

theorem command_of_no_argument {argument : String} (htakes : v.parameters = [.subnet])
    (h : ∀ ip mask, ¬ SubnetArgument argument ip mask) (name : String) :
    v.command name [argument] = .error (.badArgument argument) := by
  obtain ⟨task, list, rfl⟩ := exists_task htakes
  have hread := subnetArgument_of_no_argument h
  cases task <;> simp [SubnetTask.verb, command, hread, Except.map]

/-- With the right number of arguments, only that of a subnet can be wrong. -/
theorem gives_or_bad (h : arguments.length = v.parameters.length) :
    (∃ c, v.Gives arguments c) ∨ v.parameters = [.subnet] ∧
      ∃ argument, arguments = [argument] ∧ ∀ ip mask, ¬ SubnetArgument argument ip mask := by
  by_cases htakes : v.parameters = [.subnet]
  · obtain ⟨task, list, rfl⟩ := exists_task htakes
    rw [htakes] at h
    obtain ⟨argument, rfl⟩ := List.length_eq_one_iff.mp h
    by_cases hgives : ∃ ip mask, SubnetArgument argument ip mask
    · obtain ⟨ip, mask, hargument⟩ := hgives
      exact .inl ⟨_, .subnet task list hargument⟩
    · exact .inr ⟨htakes, argument, rfl, fun ip mask hargument => hgives ⟨ip, mask, hargument⟩⟩
  · refine .inl ?_
    cases v with
    | add | remove | isIn => exact absurd rfl htakes
    | allIn list =>
      obtain rfl := List.length_eq_zero_iff.mp h
      exact ⟨_, .entries list⟩
    | clearLogin =>
      obtain ⟨login, rfl⟩ := List.length_eq_one_iff.mp h
      exact ⟨_, .login login⟩
    | clearAddress =>
      obtain ⟨address, rfl⟩ := List.length_eq_one_iff.mp h
      exact ⟨_, .address address⟩
    | request =>
      obtain ⟨login, password, address, rfl⟩ := List.length_eq_three.mp h
      exact ⟨_, .attempt login password address⟩
    | health =>
      obtain rfl := List.length_eq_zero_iff.mp h
      exact ⟨_, .health⟩

theorem gives_of_command {name : String} (h : v.command name arguments = .ok c) :
    v.Gives arguments c := by
  by_cases hlength : arguments.length = v.parameters.length
  · rcases gives_or_bad hlength with ⟨c', hgives⟩ | ⟨htakes, argument, rfl, hbad⟩
    · rw [command_of_gives hgives] at h
      rwa [← Except.ok.inj h]
    · rw [command_of_no_argument htakes hbad] at h
      cases h
  · rw [command_of_length_ne hlength] at h
    cases h

end Verb

/-! ## What lines are read as -/

section

variable {line word : String} {arguments ws : List String} {result : Except LineError Command}

theorem exists_words (line : String) : ∃ ws, HasWords line ws := by
  have hback : ((words line.toList).map String.ofList).map String.toList = words line.toList := by
    rw [List.map_map]
    exact (List.map_congr_left fun w _ => String.toList_ofList).trans (List.map_id _)
  refine ⟨(words line.toList).map String.ofList, ?_⟩
  rw [HasWords, hback]
  exact spaced_words _

theorem ofLine_nil (h : HasWords line []) : Command.ofLine line = .error .empty := by
  have hwords : words line.toList = [] := words_eq_iff.mpr h
  rw [Command.ofLine, hwords]

theorem ofLine_cons (h : HasWords line (word :: arguments)) :
    Command.ofLine line =
      match Verb.spellings.lookup (folded word) with
      | none => .error (.unsupported (folded word))
      | some v => v.command (folded word) arguments := by
  have hwords : words line.toList = word.toList :: arguments.map String.toList := words_eq_iff.mpr h
  have harguments : (arguments.map String.toList).map String.ofList = arguments := by
    rw [List.map_map]
    exact (List.map_congr_left fun w _ => String.ofList_toList).trans (List.map_id _)
  rw [Command.ofLine, hwords]
  dsimp only
  rw [harguments]
  rfl

theorem ofLine_of_name (h : HasWords line (word :: arguments)) {v : Verb}
    (hname : folded word ∈ v.names) :
    Command.ofLine line = v.command (folded word) arguments := by
  rw [ofLine_cons h, Verb.lookup_of_mem_names hname]

theorem ofLine_of_reading (h : HasWords line ws) (hreading : LineReading ws result) :
    Command.ofLine line = result := by
  cases hreading with
  | empty => exact ofLine_nil h
  | unsupported hunknown => rw [ofLine_cons h, Verb.lookup_of_not_mem_names hunknown]
  | badArgumentCount hname hlength =>
    rw [ofLine_of_name h hname, Verb.command_of_length_ne hlength]
  | badArgument hname htakes hbad =>
    rw [ofLine_of_name h hname, Verb.command_of_no_argument htakes hbad]
  | command hname hgives => rw [ofLine_of_name h hname, Verb.command_of_gives hgives]

/-- Whatever the words of a line are, it is a command or has one of the faults. -/
theorem exists_reading (ws : List String) : ∃ result, LineReading ws result := by
  cases ws with
  | nil => exact ⟨_, .empty⟩
  | cons word arguments =>
    by_cases hknown : ∃ v : Verb, folded word ∈ v.names
    · obtain ⟨v, hname⟩ := hknown
      by_cases hlength : arguments.length = v.parameters.length
      · rcases v.gives_or_bad hlength with ⟨c, hgives⟩ | ⟨htakes, argument, rfl, hbad⟩
        · exact ⟨_, .command hname hgives⟩
        · exact ⟨_, .badArgument hname htakes hbad⟩
      · exact ⟨_, .badArgumentCount hname hlength⟩
    · exact ⟨_, .unsupported fun v hname => hknown ⟨v, hname⟩⟩

theorem reading_of_ofLine (h : HasWords line ws) : LineReading ws (Command.ofLine line) := by
  obtain ⟨result, hreading⟩ := exists_reading ws
  rwa [ofLine_of_reading h hreading]

theorem ofLine_eq_iff :
    Command.ofLine line = result ↔ ∃ ws, HasWords line ws ∧ LineReading ws result := by
  constructor
  · rintro rfl
    obtain ⟨ws, h⟩ := exists_words line
    exact ⟨ws, h, reading_of_ofLine h⟩
  · rintro ⟨ws, h, hreading⟩
    exact ofLine_of_reading h hreading

/-- The words of a line can be typed. -/
theorem HasWords.isWord (h : HasWords line ws) : ∀ w ∈ ws, IsWord w.toList :=
  fun _ hw => Spaced.isWord h _ (List.mem_map_of_mem hw)

theorem hasWords_intercalate (h : ∀ w ∈ ws, IsWord w.toList) :
    HasWords (" ".intercalate ws) ws := by
  rw [HasWords, String.toList_intercalate]
  exact spaced_intercalate (List.forall_mem_map.mpr h)

end

/-! ## Commands that can be typed -/

namespace Command

variable {c : Command}

/-- What is typed before a slash is part of a word. -/
theorem typeable_of_argument {argument ip : String} {mask : UInt8}
    (h : SubnetArgument argument ip mask) (hword : IsWord argument.toList) :
    Unbroken ip.toList ∧ '/' ∉ ip.toList := by
  obtain ⟨digits, hargument, hfirst, -⟩ := h
  have hunbroken := hword.unbroken
  rw [hargument] at hunbroken
  exact ⟨(unbroken_append.mp hunbroken).1, hfirst⟩

theorem typeable_of_gives {v : Verb} {arguments : List String} (h : v.Gives arguments c)
    (hwords : ∀ w ∈ arguments, IsWord w.toList) : c.Typeable := by
  cases h with
  | subnet task list hargument =>
    have hip := typeable_of_argument hargument (hwords _ List.mem_cons_self)
    cases task <;> exact hip
  | entries | health => trivial
  | login login => exact hwords login List.mem_cons_self
  | address address => exact hwords address List.mem_cons_self
  | attempt login password address =>
    exact ⟨hwords login (by simp), hwords password (by simp), hwords address (by simp)⟩

/-- The argument that is written for an address text and a mask. -/
theorem toList_argument (ip : String) (mask : UInt8) :
    (ip ++ "/" ++ decimal mask.toNat).toList = ip.toList ++ '/' :: numeral mask.toNat := by
  simp [decimal]

theorem subnetArgument_arguments {ip : String} (h : '/' ∉ ip.toList) (mask : UInt8) :
    SubnetArgument (ip ++ "/" ++ decimal mask.toNat) ip mask :=
  ⟨numeral mask.toNat, toList_argument ip mask, h, unsigned_numeral _⟩

theorem isWord_argument {ip : String} (h : Unbroken ip.toList) (mask : UInt8) :
    IsWord (ip ++ "/" ++ decimal mask.toNat).toList := by
  rw [toList_argument]
  refine ⟨List.append_ne_nil_of_right_ne_nil _ (List.cons_ne_nil _ _), ?_⟩
  refine unbroken_append.mpr ⟨h, unbroken_cons.mpr ⟨by decide, ?_⟩⟩
  exact unbroken_numeral _

theorem gives_arguments (h : c.Typeable) : c.verb.Gives c.arguments c := by
  cases c with
  | check a => exact .attempt a.login a.password a.address
  | add list ip mask => exact .subnet .add list (subnetArgument_arguments h.2 mask)
  | remove list ip mask => exact .subnet .remove list (subnetArgument_arguments h.2 mask)
  | isListed list ip mask => exact .subnet .isIn list (subnetArgument_arguments h.2 mask)
  | listAll list => exact .entries list
  | resetLogin login => exact .login login
  | resetAddress address => exact .address address
  | health => exact .health

theorem isWord_arguments (h : c.Typeable) : ∀ w ∈ c.arguments, IsWord w.toList := by
  cases c with
  | check a =>
    obtain ⟨hlogin, hpassword, haddress⟩ := h
    simpa [arguments] using ⟨hlogin, hpassword, haddress⟩
  | add list ip mask | remove list ip mask | isListed list ip mask =>
    exact List.forall_mem_singleton.mpr (isWord_argument h.1 mask)
  | resetLogin | resetAddress => exact List.forall_mem_singleton.mpr h
  | listAll | health => nofun

end Command

namespace Verb

variable {v : Verb} {name : String}

theorem folded_of_mem_names (h : name ∈ v.names) : folded name = name := by
  have hall : ∀ p ∈ spellings, folded p.1 = p.1 := by decide +kernel
  exact hall (name, v) (mem_spellings_iff.mpr h)

theorem isWord_of_mem_names (h : name ∈ v.names) : IsWord name.toList := by
  have hall : ∀ p ∈ spellings, p.1.toList ≠ [] ∧ p.1.toList.all (!isBlank ·) = true := by
    decide
  obtain ⟨hne, hunbroken⟩ := hall (name, v) (mem_spellings_iff.mpr h)
  refine ⟨hne, fun c hc => ?_⟩
  have hletter := List.all_eq_true.mp hunbroken c hc
  rwa [Bool.not_eq_true'] at hletter

/-- Every verb has a name. -/
theorem exists_name (v : Verb) : ∃ name, name ∈ v.names := by
  cases v with
  | add list | remove list | isIn list | allIn list =>
    cases list <;> exact ⟨_, List.mem_cons_self⟩
  | clearLogin | clearAddress | request | health => exact ⟨_, List.mem_cons_self⟩

end Verb

namespace Command

variable {c : Command} {name : String}

/-- The line of a command has the name and the arguments as its words. -/
theorem hasWords_line (h : c.Typeable) (hname : name ∈ c.verb.names) :
    HasWords (c.line name) (name :: c.arguments) := by
  refine hasWords_intercalate (List.forall_mem_cons.mpr ⟨?_, isWord_arguments h⟩)
  exact Verb.isWord_of_mem_names hname

theorem ofLine_line (h : c.Typeable) (hname : name ∈ c.verb.names) :
    ofLine (c.line name) = .ok c := by
  have hfolded : folded name ∈ c.verb.names := by rwa [Verb.folded_of_mem_names hname]
  exact ofLine_of_reading (hasWords_line h hname) (.command hfolded (gives_arguments h))

theorem typeable_of_ofLine {line : String} (h : ofLine line = .ok c) : c.Typeable := by
  obtain ⟨ws, hwords, hreading⟩ := ofLine_eq_iff.mp h
  cases hreading with
  | command hname hgives =>
    exact typeable_of_gives hgives (List.forall_mem_cons.mp hwords.isWord).2

end Command

/-- Lines are read by their grammar, and every command that can be typed has a line. -/
theorem line_law : LineLaw where
  read _ _ := ofLine_eq_iff
  typeable c := by
    constructor
    · rintro ⟨line, h⟩
      exact Command.typeable_of_ofLine h
    · intro h
      obtain ⟨name, hname⟩ := Verb.exists_name c.verb
      exact ⟨c.line name, Command.ofLine_line h hname⟩
  typed _ h _ hname := Command.ofLine_line h hname

example : Command.ofLine "\tWLadd 10.0.0.0/+08 " = .ok (.add .allow "10.0.0.0" 8) := by decide

end LoginAdmission
