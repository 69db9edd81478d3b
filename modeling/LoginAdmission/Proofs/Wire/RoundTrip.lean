/-
  Every value of the wire format is read back from its text.

  Main statement: `wire_round_trips`, for all types of the wire format. So whatever text a value was
  read from, it has one text from then on.
-/
import LoginAdmission.Proofs.Address.Dotted
import LoginAdmission.Proofs.Wire.Faithful
import LoginAdmission.Wire.Command
import LoginAdmission.Wire.Outcome

namespace LoginAdmission

open Json (Source Plain)

/-- Values of a type are read back from their text, and a value that was read from any text is
written and read again as the same value with the same text. -/
structure RoundTrips (α : Type) [Wire α] : Prop where
  written : ∀ a : α, Wire.ofText (Wire.text a) = .ok a
  again : ∀ (s : String) (a : α), Wire.ofText s = .ok a →
    ∃ b : α, Wire.ofText (Wire.text a) = .ok b ∧ b = a ∧ Wire.text b = Wire.text a

/-- All types of the wire format. -/
structure WireRoundTrips : Prop where
  command : RoundTrips Command
  outcome : RoundTrips Outcome
  commandFault : RoundTrips CommandFault
  ticket : RoundTrips Ticket
  auditRecord : RoundTrips AuditRecord
  historyRecord : RoundTrips HistoryRecord
  entry : RoundTrips Entry
  subnet : RoundTrips Subnet
  decision : RoundTrips Decision
  reason : RoundTrips Reason
  thresholds : RoundTrips Thresholds
  accessList : RoundTrips AccessList
  dimension : RoundTrips Dimension

namespace Faithful

/-! ## Names -/

theorem accessList : Faithful AccessList 0 where
  plain list := Plain.string 0 list.name
  read source list := by cases list <;> rfl

theorem dimension : Faithful Dimension 0 where
  plain d := Plain.string 0 d.name
  read source d := by cases d <;> rfl

theorem reason : Faithful Reason 0 where
  plain r := Plain.string 0 r.name
  read source r := by cases r <;> rfl

/-! ## Structures -/

theorem read_address (a : Address) : Address.read (.string a.text) = .ok a := by
  unfold Address.read
  simp only [Json.readString, Bind.bind, Except.bind, Address.ofText_text]
  rfl

theorem readByte_mask (s : Subnet) : Json.readByte (.nat s.mask) = .ok (UInt8.ofNat s.mask) := by
  have hread := Json.readByte_nat (UInt8.ofNat s.mask)
  rw [s.toNat_mask] at hread
  exact hread

/-- The address and the mask of a subnet are read, and are a subnet. -/
theorem read_subnet (source : Source) (s : Subnet) : Wire.read source (Wire.encode s) = .ok s := by
  have hip := read_address s.ip
  have hmask := readByte_mask s
  have hpair : Subnet.layout.read source
      (.record [("ip", .string s.ip.text), ("mask", .nat s.mask)]) =
        .ok (s.ip, UInt8.ofNat s.mask) := by
    refine Json.Layout.read_record source ?_ (by simp) ?_
    · refine List.forall_mem_cons.mpr ⟨⟨_, rfl, Json.test_ok hip⟩, ?_⟩
      exact List.forall_mem_cons.mpr ⟨⟨_, rfl, Json.test_ok hmask⟩, List.forall_mem_nil _⟩
    · unfold Subnet.layout
      dsimp only
      rw [Json.Fields.get_keyed 0 _ rfl, Json.Fields.get_keyed 1 _ rfl, hip, hmask]
      rfl
  simp only [Wire.read, Wire.encode]
  rw [hpair]
  simp only [Bind.bind, Except.bind, s.toNat_mask, s.ofMask_mask]
  rfl

theorem subnet : Faithful Subnet 1 where
  plain s := by
    have hmask : s.mask < wideBound := Nat.lt_of_le_of_lt s.mask_le (by decide)
    refine Plain.record (List.forall_mem_cons.mpr ⟨Plain.string 0 s.ip.text, ?_⟩)
    exact List.forall_mem_cons.mpr ⟨Plain.nat 0 hmask, List.forall_mem_nil _⟩
  read := read_subnet

theorem entry : Faithful Entry 2 := by
  refine ofLayout Entry.layout
    (fun e => [("subnet", Wire.encode e.subnet), ("id", Wire.encode e.id)])
    (fun _ => rfl) (fun _ => rfl) (fun source e => ?_) (fun _ => by simp) (fun source e => ?_)
  · refine List.forall_mem_cons.mpr ⟨subnet.field (by decide) source e.subnet rfl, ?_⟩
    refine List.forall_mem_cons.mpr ⟨word.field (by decide) source e.id rfl, ?_⟩
    exact List.forall_mem_nil _
  · unfold Entry.layout
    dsimp only
    rw [Json.Fields.get_keyed 0 _ rfl, Json.Fields.get_keyed 1 _ rfl, subnet.read, readWord_encode]
    rfl

theorem decision : Faithful Decision 1 := by
  refine ofLayout Decision.layout
    (fun d => [("allowed", Wire.encode d.allowed), ("reason", Wire.encode d.reason)])
    (fun _ => rfl) (fun _ => rfl) (fun source d => ?_) (fun _ => by simp) (fun source d => ?_)
  · refine List.forall_mem_cons.mpr ⟨bool.field (by decide) source d.allowed rfl, ?_⟩
    refine List.forall_mem_cons.mpr ⟨reason.field (by decide) source d.reason rfl, ?_⟩
    exact List.forall_mem_nil _
  · unfold Decision.layout
    dsimp only
    rw [Json.Fields.get_keyed 0 _ rfl, Json.Fields.get_keyed 1 _ rfl, reason.read]
    rfl

theorem thresholds : Faithful Thresholds 1 := by
  refine ofLayout (fun _ => Thresholds.layout)
    (fun t => [("login", Wire.encode t.login), ("password", Wire.encode t.password),
      ("address", Wire.encode t.address)])
    (fun _ => rfl) (fun _ => rfl) (fun source t => ?_) (fun _ => by simp) (fun source t => ?_)
  · refine List.forall_mem_cons.mpr ⟨word.field (by decide) source t.login rfl, ?_⟩
    refine List.forall_mem_cons.mpr ⟨word.field (by decide) source t.password rfl, ?_⟩
    refine List.forall_mem_cons.mpr ⟨word.field (by decide) source t.address rfl, ?_⟩
    exact List.forall_mem_nil _
  · unfold Thresholds.layout
    dsimp only
    rw [Json.Fields.get_keyed 0 _ rfl, Json.Fields.get_keyed 1 _ rfl, Json.Fields.get_keyed 2 _ rfl,
      readWord_encode, readWord_encode, readWord_encode]
    rfl

/-- A text is written as a text, not as nothing. -/
theorem optionString : Faithful (Option String) 0 := string.option nofun

theorem optionWide : Faithful (Option (BitVec 128)) 0 := wide.option nofun

theorem ticket : Faithful Ticket 1 := by
  refine ofLayout (fun _ => Ticket.layout)
    (fun t => [("id", Wire.encode t.id), ("principal", Wire.encode t.principal),
      ("timestamp_millis", Wire.encode t.timestamp)])
    (fun _ => rfl) (fun _ => rfl) (fun source t => ?_) (fun _ => by simp) (fun source t => ?_)
  · refine List.forall_mem_cons.mpr ⟨string.field (by decide) .direct t.id rfl, ?_⟩
    refine List.forall_mem_cons.mpr ⟨optionString.field (by decide) .direct t.principal rfl, ?_⟩
    refine List.forall_mem_cons.mpr ⟨optionWide.field (by decide) .direct t.timestamp rfl, ?_⟩
    exact List.forall_mem_nil _
  · unfold Ticket.layout
    dsimp only
    rw [Json.Fields.get_keyed 0 _ rfl, Json.Fields.get?_keyed 1 _ rfl,
      Json.Fields.get?_keyed 2 _ rfl, string.read, optionString.read, optionWide.read]
    rfl

theorem auditRecord : Faithful AuditRecord 1 := by
  refine ofLayout (fun _ => AuditRecord.layout)
    (fun r => [("id", Wire.encode r.id), ("label", Wire.encode r.label),
      ("principal", Wire.encode r.principal), ("status", Wire.encode r.status)])
    (fun _ => rfl) (fun _ => rfl) (fun source r => ?_) (fun _ => by simp) (fun source r => ?_)
  · refine List.forall_mem_cons.mpr ⟨string.field (by decide) .direct r.id rfl, ?_⟩
    refine List.forall_mem_cons.mpr ⟨string.field (by decide) .direct r.label rfl, ?_⟩
    refine List.forall_mem_cons.mpr ⟨string.field (by decide) .direct r.principal rfl, ?_⟩
    refine List.forall_mem_cons.mpr ⟨string.field (by decide) .direct r.status rfl, ?_⟩
    exact List.forall_mem_nil _
  · rfl

/-! ## Tagged choices -/

theorem commandFault : Faithful CommandFault 1 where
  plain fault := by
    cases fault <;> exact plain_single string (by decide) _
  read source fault := by
    cases fault <;> exact read_single string source _ rfl (by decide) rfl fun _ => rfl

theorem outcome : Faithful Outcome 4 where
  plain outcome := by
    cases outcome with
    | acknowledged => exact plain_empty "status" "ack"
    | decision d => exact plain_single decision (by decide) d
    | added id => exact plain_single word (by decide) id
    | listed present => exact plain_single bool (by decide) present
    | entries es => exact plain_single entry.list (by decide) es
    | failed fault => exact plain_single commandFault (by decide) fault
  read source outcome := by
    cases outcome with
    | acknowledged => rfl
    | decision d => exact read_single decision source d rfl (by decide) rfl fun _ => rfl
    | added id => exact read_single word source id rfl (by decide) rfl fun _ => rfl
    | listed present => exact read_single bool source present rfl (by decide) rfl fun _ => rfl
    | entries es => exact read_single entry.list source es rfl (by decide) rfl fun _ => rfl
    | failed fault => exact read_single commandFault source fault rfl (by decide) rfl fun _ => rfl

theorem historyRecord : Faithful HistoryRecord 5 := by
  refine ofLayout (fun _ => HistoryRecord.layout)
    (fun r => [("meta", Wire.encode r.ticket), ("label", Wire.encode r.label),
      ("result", Wire.encode r.outcome)])
    (fun _ => rfl) (fun _ => rfl) (fun source r => ?_) (fun _ => by simp) (fun source r => ?_)
  · refine List.forall_mem_cons.mpr ⟨ticket.field (by decide) .direct r.ticket rfl, ?_⟩
    refine List.forall_mem_cons.mpr ⟨string.field (by decide) .direct r.label rfl, ?_⟩
    refine List.forall_mem_cons.mpr ⟨outcome.field (by decide) .direct r.outcome rfl, ?_⟩
    exact List.forall_mem_nil _
  · unfold HistoryRecord.layout
    dsimp only
    rw [Json.Fields.get_keyed 0 _ rfl, Json.Fields.get_keyed 1 _ rfl,
      Json.Fields.get_keyed 2 _ rfl, ticket.read, string.read, outcome.read]
    rfl

/-- The fields of a login attempt. -/
theorem check_fields (a : Attempt) :
    ∀ m ∈ (Command.check a).fields, Field 0 Command.checkLayout.tests m := by
  refine List.forall_mem_cons.mpr ⟨string.field (by decide) .direct a.login rfl, ?_⟩
  refine List.forall_mem_cons.mpr ⟨string.field (by decide) .direct a.password rfl, ?_⟩
  refine List.forall_mem_cons.mpr ⟨string.field (by decide) .direct a.address rfl, ?_⟩
  exact List.forall_mem_nil _

/-- The fields of a command on a subnet. -/
theorem subnet_fields (variant : String) (make : AccessList → String → UInt8 → Command)
    (list : AccessList) (ip : String) (mask : UInt8) :
    ∀ m ∈ [("list", Wire.encode list), ("ip", .string ip), ("mask", Wire.encode mask)],
      Field 0 (Command.subnetLayout variant make).tests m := by
  refine List.forall_mem_cons.mpr ⟨accessList.field (by decide) .buffered list rfl, ?_⟩
  refine List.forall_mem_cons.mpr ⟨string.field (by decide) .direct ip rfl, ?_⟩
  refine List.forall_mem_cons.mpr ⟨byte.field (by decide) .direct mask rfl, ?_⟩
  exact List.forall_mem_nil _

/-- A command on a subnet is built of its fields. -/
theorem subnet_build (variant : String) (make : AccessList → String → UInt8 → Command)
    (list : AccessList) (ip : String) (mask : UInt8) :
    (Command.subnetLayout variant make).build (.named
      ([("list", Wire.encode list), ("ip", .string ip), ("mask", Wire.encode mask)].map
        Json.keyed)) = .ok (make list ip mask) := by
  have hlist : Command.readList (Wire.encode list) = .ok list := accessList.read .buffered list
  unfold Command.subnetLayout
  dsimp only
  rw [Json.Fields.get_keyed 0 _ rfl, Json.Fields.get_keyed 1 _ rfl, Json.Fields.get_keyed 2 _ rfl,
    hlist, readByte_encode]
  rfl

theorem command : Faithful Command 1 where
  plain c := by
    cases c with
    | check a => exact plain_variant (check_fields a)
    | add list ip mask => exact plain_variant (subnet_fields "AddAddress" .add list ip mask)
    | remove list ip mask =>
      exact plain_variant (subnet_fields "RemoveAddress" .remove list ip mask)
    | isListed list ip mask => exact plain_variant (subnet_fields "IsListed" .isListed list ip mask)
    | listAll list => exact plain_single accessList (by decide) list
    | resetLogin login => exact plain_single string (by decide) login
    | resetAddress address => exact plain_single string (by decide) address
    | health => exact plain_empty "cmd" "health"
  read source c := by
    cases c with
    | check a =>
      exact read_variant source rfl (check_fields a) (by simp [Command.tagged, Command.fields]) rfl
    | add list ip mask =>
      exact read_variant source rfl (subnet_fields "AddAddress" .add list ip mask)
        (by simp [Command.tagged, Command.fields]) (subnet_build ..)
    | remove list ip mask =>
      exact read_variant source rfl (subnet_fields "RemoveAddress" .remove list ip mask)
        (by simp [Command.tagged, Command.fields]) (subnet_build ..)
    | isListed list ip mask =>
      exact read_variant source rfl (subnet_fields "IsListed" .isListed list ip mask)
        (by simp [Command.tagged, Command.fields]) (subnet_build ..)
    | listAll list => exact read_single accessList source list rfl (by decide) rfl fun _ => rfl
    | resetLogin login => exact read_single string source login rfl (by decide) rfl fun _ => rfl
    | resetAddress address =>
      exact read_single string source address rfl (by decide) rfl fun _ => rfl
    | health => rfl

/-- A faithful form that is not nested too deep is read back from its text. -/
theorem roundTrips {α : Type} [Wire α] {d : Nat} (h : Faithful α d) (hd : d ≤ Json.depthLimit) :
    RoundTrips α := by
  have hwritten : ∀ a : α, Wire.ofText (Wire.text a) = .ok a := by
    intro a
    unfold Wire.ofText Wire.text
    rw [Json.read_text (h.plain a) hd]
    dsimp only
    rw [h.read]
    rfl
  exact ⟨hwritten, fun s a _ => ⟨a, hwritten a, rfl, rfl⟩⟩

end Faithful

/-- The whole wire format is read back from its text. -/
theorem wire_round_trips : WireRoundTrips where
  command := Faithful.command.roundTrips (by decide)
  outcome := Faithful.outcome.roundTrips (by decide)
  commandFault := Faithful.commandFault.roundTrips (by decide)
  ticket := Faithful.ticket.roundTrips (by decide)
  auditRecord := Faithful.auditRecord.roundTrips (by decide)
  historyRecord := Faithful.historyRecord.roundTrips (by decide)
  entry := Faithful.entry.roundTrips (by decide)
  subnet := Faithful.subnet.roundTrips (by decide)
  decision := Faithful.decision.roundTrips (by decide)
  reason := Faithful.reason.roundTrips (by decide)
  thresholds := Faithful.thresholds.roundTrips (by decide)
  accessList := Faithful.accessList.roundTrips (by decide)
  dimension := Faithful.dimension.roundTrips (by decide)

end LoginAdmission
