/-
  Objects are not read in two ways.

  Which value an object is read as depends on the values under the names that its type knows, and on
  nothing else: not on the order of the members, and not on members with other names. An object in
  which a known name occurs twice is not read at all.

  Main statement: `objects_unambiguous`, for the ten types that are written as objects. It is about
  texts: two objects are compared by the characters that stand for their values. Beside
  `ObjectText.read_text` it rests on `Form.Governs`, which each type has by its layout.
-/
import LoginAdmission.Proofs.Json.Members
import LoginAdmission.Proofs.Json.Objects
import LoginAdmission.Wire.Command
import LoginAdmission.Wire.Outcome

namespace LoginAdmission

open Json (Form Source Reading Layout Fields Acceptable scanNested)

namespace ObjectText

/-- The texts of the values under a name, in their order. -/
def values (o : ObjectText) (name : String) : List (List Char) :=
  (o.members.filter (·.key = some name)).map (·.value)

/-- The names that a form knows in an object. -/
def known (form : Form) (o : ObjectText) : List String :=
  form.known fun name => (o.values name).map fun text => (scanNested text).1

end ObjectText

/-- The values of a type are read from objects of a form without ambiguity. -/
structure Unambiguous (α : Type) [Wire α] (form : Form) : Prop where
  /-- An object in which a known name occurs twice is not read. -/
  repeated : ∀ o : ObjectText, ∀ name ∈ o.known form, 1 < (o.values name).length →
    ∀ a : α, Wire.ofText o.text ≠ .ok a
  /-- Two objects with the same texts under the known names, and beside them only members that have
  no fault, are read as the same value, or neither is read. -/
  agree : ∀ o o' : ObjectText, (∀ name ∈ o.known form, o'.values name = o.values name) →
    (∀ m ∈ o.members ++ o'.members, Acceptable (o.known form) m.member) →
    (Wire.ofText (α := α) o.text).toOption = (Wire.ofText (α := α) o'.text).toOption

/-- Nothing that is read from an object is read in two ways. -/
structure ObjectsUnambiguous : Prop where
  /-- Every text that reads as an object has the parts of one. -/
  parts : ∀ s members, JsonText.read s = ⟨.object members true, true⟩ →
    ∃ o : ObjectText, o.text = s ∧ o.json = members
  command : Unambiguous Command (.tagged "cmd"
    [("check", ["login", "password", "address"]), ("add_address", ["list", "ip", "mask"]),
      ("remove_address", ["list", "ip", "mask"]), ("is_listed", ["list", "ip", "mask"]),
      ("list_all", ["list"]), ("reset_login", ["login"]), ("reset_address", ["address"]),
      ("health", [])])
  outcome : Unambiguous Outcome (.tagged "status"
    [("ack", []), ("decision", ["decision"]), ("added", ["id"]), ("listed", ["present"]),
      ("entries", ["entries"]), ("error", ["failure"])])
  commandFault : Unambiguous CommandFault (.tagged "kind"
    [("invalid_args", ["msg"]), ("conflict", ["msg"]), ("not_found", ["what"]),
      ("internal", ["msg"])])
  ticket : Unambiguous Ticket (.record ["id", "principal", "timestamp_millis"])
  auditRecord : Unambiguous AuditRecord (.record ["id", "label", "principal", "status"])
  historyRecord : Unambiguous HistoryRecord (.record ["meta", "label", "result"])
  entry : Unambiguous Entry (.record ["subnet", "id"])
  subnet : Unambiguous Subnet (.record ["ip", "mask"])
  decision : Unambiguous Decision (.record ["allowed", "reason"])
  thresholds : Unambiguous Thresholds (.record ["login", "password", "address"])

/-! ## From the members to the text -/

namespace ObjectText

variable (o : ObjectText)

theorem values_json (name : String) :
    Json.values name o.json = (o.values name).map fun text => (scanNested text).1 := by
  unfold Json.values json values
  rw [List.filter_map, List.map_map, List.map_map]
  rfl

theorem known_eq (form : Form) : o.known form = form.known (Json.values · o.json) := by
  unfold known
  congr
  funext name
  rw [values_json]

theorem ofText_text {α : Type} [Wire α] :
    Wire.ofText (α := α) o.text = Wire.read .direct (.object o.json true) := by
  unfold Wire.ofText
  rw [o.read_text]
  dsimp only
  cases Wire.read (α := α) .direct (.object o.json true) <;> rfl

end ObjectText

/-- What a form knows is told by the values under the names it knows. -/
theorem Json.Form.known_congr {form : Form} {values values' : String → List Json}
    (h : ∀ name ∈ form.known values, values' name = values name) :
    form.known values' = form.known values := by
  cases form with
  | record fields => rfl
  | tagged tag variants => rw [known, known, h tag List.mem_cons_self]

theorem Json.toOption_eq {α : Type} {x y : Json.Reading α} (h : ∀ a, x = .ok a ↔ y = .ok a) :
    x.toOption = y.toOption := by
  cases x with
  | ok a => rw [(h a).mp rfl]
  | error e =>
    cases y with
    | ok a => cases (h a).mpr rfl
    | error e' => rfl

/-- A type that is read by its form is read without ambiguity. -/
theorem Json.Form.Governs.unambiguous {α : Type} [Wire α] {form : Form}
    (h : form.Governs (Wire.read (α := α) .direct)) : Unambiguous α form where
  repeated o name hname htwice a hread := by
    rw [o.ofText_text] at hread
    have honce := h.once _ a hread name (o.known_eq form ▸ hname)
    rw [o.values_json, List.length_map] at honce
    omega
  agree o o' hvalues haccept := by
    have hjson : ∀ name ∈ form.known (Json.values · o.json),
        Json.values name o'.json = Json.values name o.json := by
      intro name hname
      rw [o.values_json, o'.values_json, hvalues name (o.known_eq form ▸ hname)]
    have hknown := known_congr hjson
    have haccept : ∀ m ∈ o.json ++ o'.json, Acceptable (form.known (Json.values · o.json)) m := by
      rw [← o.known_eq form, ObjectText.json, ObjectText.json, ← List.map_append]
      exact List.forall_mem_map.mpr haccept
    rw [List.forall_mem_append] at haccept
    rw [o.ofText_text, o'.ofText_text]
    refine Json.toOption_eq fun a => ⟨h.agree _ _ a hjson haccept.2, ?_⟩
    refine h.agree _ _ a (fun name hname => (hjson name (hknown ▸ hname)).symm) ?_
    rw [hknown]
    exact haccept.1

/-! ## Layouts -/

theorem Subnet.layout_byNames : Subnet.layout.ByNames ["ip", "mask"] where
  tests := rfl
  build members members' h := by
    simp only [List.forall_mem_cons] at h
    obtain ⟨hip, hmask, -⟩ := h
    simp only [layout, Fields.get_congr hip, Fields.get_congr hmask]

theorem Entry.layout_byNames (source : Source) :
    (Entry.layout source).ByNames ["subnet", "id"] where
  tests := rfl
  build members members' h := by
    simp only [List.forall_mem_cons] at h
    obtain ⟨hsubnet, hid, -⟩ := h
    simp only [layout, Fields.get_congr hsubnet, Fields.get_congr hid]

theorem Decision.layout_byNames (source : Source) :
    (Decision.layout source).ByNames ["allowed", "reason"] where
  tests := rfl
  build members members' h := by
    simp only [List.forall_mem_cons] at h
    obtain ⟨hallowed, hreason, -⟩ := h
    simp only [layout, Fields.get_congr hallowed, Fields.get_congr hreason]

theorem Thresholds.layout_byNames :
    Thresholds.layout.ByNames ["login", "password", "address"] where
  tests := rfl
  build members members' h := by
    simp only [List.forall_mem_cons] at h
    obtain ⟨hlogin, hpassword, haddress, -⟩ := h
    simp only [layout, Fields.get_congr hlogin, Fields.get_congr hpassword,
      Fields.get_congr haddress]

theorem Ticket.layout_byNames : Ticket.layout.ByNames ["id", "principal", "timestamp_millis"] where
  tests := rfl
  build members members' h := by
    simp only [List.forall_mem_cons] at h
    obtain ⟨hid, hprincipal, htimestamp, -⟩ := h
    simp only [layout, Fields.get_congr hid, Fields.get?_congr hprincipal,
      Fields.get?_congr htimestamp]

theorem AuditRecord.layout_byNames :
    AuditRecord.layout.ByNames ["id", "label", "principal", "status"] where
  tests := rfl
  build members members' h := by
    simp only [List.forall_mem_cons] at h
    obtain ⟨hid, hlabel, hprincipal, hstatus, -⟩ := h
    simp only [layout, Fields.get_congr hid, Fields.get_congr hlabel, Fields.get_congr hprincipal,
      Fields.get_congr hstatus]

theorem HistoryRecord.layout_byNames :
    HistoryRecord.layout.ByNames ["meta", "label", "result"] where
  tests := rfl
  build members members' h := by
    simp only [List.forall_mem_cons] at h
    obtain ⟨hmeta, hlabel, hresult, -⟩ := h
    simp only [layout, Fields.get_congr hmeta, Fields.get_congr hlabel, Fields.get_congr hresult]

theorem CommandFault.layout_byNames (variant field : String) (make : String → CommandFault) :
    (CommandFault.layout variant field make).ByNames [field] where
  tests := rfl
  build members members' h := by
    rw [List.forall_mem_singleton] at h
    unfold layout
    dsimp only
    rw [Fields.get_congr h]

theorem Outcome.layout_byNames {α : Type} [Wire α] (variant field : String) (make : α → Outcome) :
    (Outcome.layout variant field make).ByNames [field] where
  tests := rfl
  build members members' h := by
    rw [List.forall_mem_singleton] at h
    unfold layout
    dsimp only
    rw [Fields.get_congr h]

namespace Command

theorem checkLayout_byNames : checkLayout.ByNames ["login", "password", "address"] where
  tests := rfl
  build members members' h := by
    simp only [List.forall_mem_cons] at h
    obtain ⟨hlogin, hpassword, haddress, -⟩ := h
    simp only [checkLayout, Fields.get_congr hlogin, Fields.get_congr hpassword,
      Fields.get_congr haddress]

theorem subnetLayout_byNames (variant : String) (make : AccessList → String → UInt8 → Command) :
    (subnetLayout variant make).ByNames ["list", "ip", "mask"] where
  tests := rfl
  build members members' h := by
    simp only [List.forall_mem_cons] at h
    obtain ⟨hlist, hip, hmask, -⟩ := h
    simp only [subnetLayout, Fields.get_congr hlist, Fields.get_congr hip, Fields.get_congr hmask]

theorem listAllLayout_byNames : listAllLayout.ByNames ["list"] where
  tests := rfl
  build members members' h := by
    rw [List.forall_mem_singleton] at h
    simp only [listAllLayout, Fields.get_congr h]

theorem textLayout_byNames (variant field : String) (make : String → Command) :
    (textLayout variant field make).ByNames [field] where
  tests := rfl
  build members members' h := by
    rw [List.forall_mem_singleton] at h
    simp only [textLayout, Fields.get_congr h]

end Command

/-! ## Types -/

/-- Each variant of a tagged choice is read by the names that its form gives it. -/
theorem CommandFault.governed :
    (Form.tagged "kind" [("invalid_args", ["msg"]), ("conflict", ["msg"]), ("not_found", ["what"]),
      ("internal", ["msg"])]).Governs (CommandFault.tagged.read .direct) := by
  refine Json.Tagged.governed (t := CommandFault.tagged) ?_
  simp only [tagged, List.forall_mem_cons]
  exact ⟨(layout_byNames ..).governed .buffered, (layout_byNames ..).governed .buffered,
    (layout_byNames ..).governed .buffered, (layout_byNames ..).governed .buffered,
    List.forall_mem_nil _⟩

theorem Outcome.governed :
    (Form.tagged "status" [("ack", []), ("decision", ["decision"]), ("added", ["id"]),
      ("listed", ["present"]), ("entries", ["entries"]), ("error", ["failure"])]).Governs
        (Outcome.tagged.read .direct) := by
  refine Json.Tagged.governed (t := Outcome.tagged) ?_
  simp only [tagged, List.forall_mem_cons]
  exact ⟨Json.governed_empty _, (layout_byNames ..).governed .buffered,
    (layout_byNames ..).governed .buffered, (layout_byNames ..).governed .buffered,
    (layout_byNames ..).governed .buffered, (layout_byNames ..).governed .buffered,
    List.forall_mem_nil _⟩

theorem Command.governed :
    (Form.tagged "cmd" [("check", ["login", "password", "address"]),
      ("add_address", ["list", "ip", "mask"]), ("remove_address", ["list", "ip", "mask"]),
      ("is_listed", ["list", "ip", "mask"]), ("list_all", ["list"]), ("reset_login", ["login"]),
      ("reset_address", ["address"]), ("health", [])]).Governs (Command.tagged.read .direct) := by
  refine Json.Tagged.governed (t := Command.tagged) ?_
  simp only [tagged, List.forall_mem_cons]
  exact ⟨checkLayout_byNames.governed .buffered, (subnetLayout_byNames ..).governed .buffered,
    (subnetLayout_byNames ..).governed .buffered, (subnetLayout_byNames ..).governed .buffered,
    listAllLayout_byNames.governed .buffered, (textLayout_byNames ..).governed .buffered,
    (textLayout_byNames ..).governed .buffered, Json.governed_empty _, List.forall_mem_nil _⟩

/-- A subnet is read as its two fields first; whether they make one is seen after that. -/
theorem Subnet.governed :
    (Form.record ["ip", "mask"]).Governs (Wire.read (α := Subnet) .direct) :=
  (layout_byNames.governed .direct).bind _

theorem objects_unambiguous : ObjectsUnambiguous where
  parts _ _ := JsonText.exists_objectText
  command := Command.governed.unambiguous
  outcome := Outcome.governed.unambiguous
  commandFault := CommandFault.governed.unambiguous
  ticket := (Ticket.layout_byNames.governed .direct).unambiguous
  auditRecord := (AuditRecord.layout_byNames.governed .direct).unambiguous
  historyRecord := (HistoryRecord.layout_byNames.governed .direct).unambiguous
  entry := ((Entry.layout_byNames .direct).governed .direct).unambiguous
  subnet := Subnet.governed.unambiguous
  decision := ((Decision.layout_byNames .direct).governed .direct).unambiguous
  thresholds := (Thresholds.layout_byNames.governed .direct).unambiguous

-- the tag may stand last, and a name that nothing knows anywhere
example : (Wire.ofText (α := Command)
    "\x7b\"login\": \"u\", \"note\": [1, null], \"cmd\": \"reset_login\"\x7d").toOption =
      some (.resetLogin "u") := by decide +kernel

end LoginAdmission
