/-
  Lines that name a subnet.

  The subnet on a line is read in two halves: the line cuts it at its first slash and reads the
  mask, and the address is looked at when the command is carried out. `Subnet.parse` reads the
  same text at once. Both agree on every argument (`parse_eq_make`), since an argument holds no
  blanks that `Subnet.parse` could forgive.

  Main statement: `subnet_line_law`, for every session and every kind of lists.
-/
import LoginAdmission.Proofs.Commands.Grammar
import LoginAdmission.Proofs.Counting.Tally
import LoginAdmission.Proofs.Errands

namespace LoginAdmission

open Text Procedure

/-- The request by which a task is done. -/
def SubnetTask.request (list : AccessList) (subnet : Subnet) : SubnetTask → Request
  | add => .add list subnet
  | remove => .remove list subnet
  | isIn => .contains list subnet

/-- What comes of a line with the verb of a task and one argument. -/
structure SubnetLineLaw (s : Session) : Prop where
  /-- Every word may be the argument of such a line. -/
  typed : ∀ (task : SubnetTask) list argument, IsWord argument.toList →
    ∀ name ∈ (task.verb list).names,
      HasWords (name ++ " " ++ argument) [name, argument] ∧ folded name ∈ (task.verb list).names
  /-- If the argument is the text of a subnet, the stores are asked once and for just that subnet.
  They are left as the request leaves them, and the books say what came of it. -/
  performed : ∀ (task : SubnetTask) list line word argument subnet, s.site.Sound →
    HasWords line [word, argument] → folded word ∈ (task.verb list).names →
    Subnet.parse argument = .ok subnet →
    let t := s.step (.line line)
    let request := task.request list subnet
    t.calls = [⟨request, (s.site.stores.serve request).1⟩] ∧
      t.state.site.stores = (s.site.stores.serve request).2.1 ∧
      ∃ outcome, s.Carried (.console s.books.arrivals)
        (task.command list subnet.ip.text (UInt8.ofNat subnet.mask)) outcome t
  /-- If not, the stores are not asked and nothing changes at the site. Either the line gives no
  command and is not entered into the books, or its command fails with the fault of the text. -/
  refused : ∀ (task : SubnetTask) list line word argument e,
    HasWords line [word, argument] → folded word ∈ (task.verb list).names →
    Subnet.parse argument = .error e →
    let t := s.step (.line line)
    let outcome := Outcome.failed (.invalidArguments e.message)
    t.calls = [] ∧ t.state.site = s.site ∧
      (t = s.answered (.command (.error (.line (.badArgument argument)))) ∨
        ∃ ip mask, t.state.books.history = s.books.history.push
            ⟨.console s.books.arrivals, (task.command list ip mask).label, outcome⟩ ∧
          (s.books.audit ≠ .rejecting → t.result = .command (.ok outcome)))

/-! ## Both ways of reading an argument -/

section

variable {argument ip : String} {mask : UInt8}

/-- What the line makes of an argument is what `Subnet.parse` makes of it. -/
theorem parse_eq_make (h : Unbroken argument.toList) (harg : SubnetArgument argument ip mask) :
    Subnet.parse argument = Subnet.make ip mask := by
  obtain ⟨digits, hargument, hfirst, hdigits⟩ := harg
  rw [hargument, unbroken_append, unbroken_cons] at h
  obtain ⟨hip, -, hbehind⟩ := h
  have parts : Subnet.Parts argument ip.toList digits :=
    ⟨ip.toList, digits, hargument, hfirst, trims_self hip, trims_self hbehind⟩
  have hle : mask.toNat ≤ 255 := Nat.le_of_lt_succ mask.toNat_lt
  rw [parts.parse_of_number hdigits hle, String.ofList_toList, UInt8.ofNat_toNat]

/-- The text of a subnet is an argument that gives its address and its mask. -/
theorem subnetArgument_of_parse (h : Unbroken argument.toList) {subnet : Subnet}
    (hparse : Subnet.parse argument = .ok subnet) :
    SubnetArgument argument subnet.ip.text (UInt8.ofNat subnet.mask) := by
  obtain ⟨digits, ⟨before, behind, hargument, hfirst, hbefore, hbehind⟩, number⟩ :=
    Subnet.given_of_parse hparse
  rw [hargument, unbroken_append, unbroken_cons] at h
  -- no blanks stand around the parts, so they are the address and the mask themselves
  obtain rfl := hbefore.eq_of_unbroken h.1
  obtain rfl := hbehind.eq_of_unbroken h.2.2
  have htext : subnet.ip.text.toList = subnet.ip.dotted := String.toList_ofList
  refine ⟨behind, ?_, ?_, ?_⟩
  · rw [htext, hargument]
  · rwa [htext]
  · rwa [Subnet.toNat_mask]

end

/-! ## Doing a task -/

namespace Session

variable (s : Session) {ip : String} {mask : UInt8}

/-- A task is an errand. -/
theorem exists_operation (task : SubnetTask) (list : AccessList) (ip : String) (mask : UInt8) :
    ∃ op, (task.command list ip mask).operation = some op ∧
      op.request? = some ((Subnet.make ip mask).map (task.request list)) := by
  cases task <;> exact ⟨_, rfl, rfl⟩

theorem direct_refused (task : SubnetTask) (list : AccessList) {e : InvalidInput}
    (h : Subnet.make ip mask = .error e) :
    s.direct (task.command list ip mask) = s.answered (.failed (.invalid e)) := by
  obtain ⟨op, hoperation, hrequest⟩ := exists_operation task list ip mask
  rw [h] at hrequest
  rw [direct, hoperation]
  exact s.step_refused hrequest

/-- A task asks the stores once, and what it does with the answer leaves them alone. -/
theorem direct_performed (task : SubnetTask) (list : AccessList) {subnet : Subnet}
    (h : Subnet.make ip mask = .ok subnet) :
    s.Asked (task.request list subnet) (s.direct (task.command list ip mask)) := by
  obtain ⟨op, hoperation, hrequest⟩ := exists_operation task list ip mask
  rw [h] at hrequest
  rw [direct, hoperation]
  exact s.step_asked hrequest

end Session

/-! ## Lines with the verb of a task -/

section

variable {task : SubnetTask} {list : AccessList} {line word argument ip : String} {mask : UInt8}

theorem ofLine_of_argument (h : HasWords line [word, argument])
    (hname : folded word ∈ (task.verb list).names) (harg : SubnetArgument argument ip mask) :
    Command.ofLine line = .ok (task.command list ip mask) :=
  ofLine_of_reading h (.command hname (.subnet task list harg))

theorem ofLine_of_no_argument (h : HasWords line [word, argument])
    (hname : folded word ∈ (task.verb list).names)
    (hbad : ∀ ip mask, ¬ SubnetArgument argument ip mask) :
    Command.ofLine line = .error (.badArgument argument) := by
  have htakes : (task.verb list).parameters = [.subnet] := by cases task <;> rfl
  exact ofLine_of_reading h (.badArgument hname htakes hbad)

/-- A line that gives a command carries it out. -/
theorem Session.carried_line (s : Session) {c : Command} (h : Command.ofLine line = .ok c) :
    ∃ outcome, s.Carried (.console s.books.arrivals) c outcome (s.step (.line line)) := by
  have hcommand : (Op.line line).command? = some c := by rw [Op.command?, h]; rfl
  exact s.carried_step hcommand

/-- A verb and a word behind it make a line of the two. -/
theorem hasWords_task {name : String} (hname : name ∈ (task.verb list).names)
    (hargument : IsWord argument.toList) :
    HasWords (name ++ " " ++ argument) [name, argument] := by
  have hline : name ++ " " ++ argument = " ".intercalate [name, argument] := by
    rw [← String.toList_inj, String.toList_intercalate]
    simp
  rw [hline]
  have hname := Verb.isWord_of_mem_names hname
  exact hasWords_intercalate
    (List.forall_mem_cons.mpr ⟨hname, List.forall_mem_singleton.mpr hargument⟩)

end

/-- A line with a task does it for the subnet that its argument is the text of, and for no other
argument. -/
theorem subnet_line_law (s : Session) : SubnetLineLaw s where
  typed task list argument hargument name hname :=
    ⟨hasWords_task hname hargument, by rwa [Verb.folded_of_mem_names hname]⟩
  performed task list line word argument subnet hsound h hname hparse := by
    have hword : IsWord argument.toList := h.isWord argument (by simp)
    have harg := subnetArgument_of_parse hword.unbroken hparse
    obtain ⟨outcome, hcarried⟩ := s.carried_line (ofLine_of_argument h hname harg)
    obtain ⟨hcalls, hstores, -⟩ := s.direct_performed task list (Subnet.make_text subnet)
    rw [Site.host_answer_of_sound hsound] at hcalls hstores
    refine ⟨hcarried.calls.trans hcalls, ?_, outcome, hcarried⟩
    rw [hcarried.state]
    exact hstores
  refused task list line word argument e h hname hparse := by
    -- a fault of the mask's number shows in the line already, all others when it is carried out
    by_cases harg : ∃ ip mask, SubnetArgument argument ip mask
    · obtain ⟨ip, mask, harg⟩ := harg
      have hword : IsWord argument.toList := h.isWord argument (by simp)
      rw [parse_eq_make hword.unbroken harg] at hparse
      obtain ⟨outcome, hcarried⟩ := s.carried_line (ofLine_of_argument h hname harg)
      have hdirect := s.direct_refused task list hparse
      have houtcome : outcome = .failed (.invalidArguments e.message) := by
        have hcarries := hcarried.carries
        rw [hdirect] at hcarries
        exact hcarries
      subst houtcome
      refine ⟨?_, ?_, .inr ⟨ip, mask, hcarried.history, hcarried.accepted⟩⟩
      · rw [hcarried.calls, hdirect]
        rfl
      · rw [hcarried.state, hdirect]
        rfl
    · have hbad := ofLine_of_no_argument h hname fun ip mask hargument => harg ⟨ip, mask, hargument⟩
      have hstep : s.step (.line line) =
          s.answered (.command (.error (.line (.badArgument argument)))) := by
        simp only [Session.step, hbad]
        rfl
      rw [hstep]
      exact ⟨rfl, rfl, .inl rfl⟩

end LoginAdmission
