import TapAccess.Message.Request
import TapAccess.Proofs.Apdu.Range
import TapAccess.Proofs.Tlv.FirstObjects

/-!
# Frames that are no request

A frame can fail to be a request for many reasons, and several of them can hold of one frame. `FirstDefect` says which
one counts. The checks come in a fixed order: the frame, the instruction and its class, whether the instruction is one
of the four that are answered, the parameters of SELECT, the objects in the data, and then the fields of the command
one after the other. Each reason has a status word (`Defect.status`), that of a wrong length for what is no frame and
for a field of the wrong size.

Reading stops at this reason, with an error that is answered with its status word (`Request.decode_of_firstDefect`),
and where there is no reason there is a request (`Request.exists_request_or_defect`).
-/

namespace TapAccess

open Tlv Tlv.Object

/-! ### Fields -/

/-- What is wrong with a field. -/
inductive Fault where
  | missing
  | nested
  | empty
  | wrongLength
  | noPoint
  deriving DecidableEq

/-- The status word for a field with this fault. -/
def Fault.status : Fault → Bytes
  | wrongLength => [0x67, 0x00]
  | missing | nested | empty | noPoint => [0x6F, 0x00]

/-- What a field is to hold. -/
inductive FieldForm where
  | someByte
  | octets (count : Nat)
  | point
  | anything

namespace FieldForm

def fault? : FieldForm → Bytes → Option Fault
  | someByte, value => if value = [] then some .empty else none
  | octets count, value => if value.length = count then none else some .wrongLength
  | point, value => if (PublicKey.decode? value).isSome then none else some .noPoint
  | anything, _ => none

/-- An object with objects inside holds no value at all. -/
def faultOf? (form : FieldForm) : Tlv.Object → Option Fault
  | .primitive _ value _ => form.fault? value
  | .constructed _ _ _ => some .nested

end FieldForm

/-- A field of a message: the tag that it is found by, what it is to hold, and whether it has to be there. -/
structure Field where
  tag : UInt8
  form : FieldForm
  required : Bool

def Field.fault? (field : Field) (objects : List Tlv.Object) : Option Fault :=
  match first field.tag objects with
  | none => if field.required then some .missing else none
  | some object => field.form.faultOf? object

/-- The fault of the first field that has one. -/
def firstFault? (fields : List Field) (objects : List Tlv.Object) : Option Fault :=
  fields.findSome? fun field => field.fault? objects

/-- The fields of the commands that are made of objects, in the order in which they are read. -/
def Instruction.fields? : Instruction → Option (List Field)
  | .auth0 => some [
    ⟨0x41, .someByte, true⟩, ⟨0x42, .someByte, true⟩, ⟨0x5C, .octets 2, true⟩, ⟨0x87, .point, true⟩,
    ⟨0x4C, .octets 16, true⟩, ⟨0x4D, .octets 32, true⟩]
  | .auth1 => some [⟨0x41, .someByte, true⟩, ⟨0x9E, .octets 64, true⟩, ⟨0x90, .anything, false⟩]
  | .controlFlow => some [⟨0x41, .someByte, true⟩, ⟨0x42, .someByte, true⟩, ⟨0x43, .anything, false⟩]
  | _ => none

/-! ### Defects -/

/-- Why a frame is no request. -/
inductive Defect where
  | framing
  | unknownInstruction
  | foreignClass
  | unhandledInstruction
  | parameters
  | objects
  | field (fault : Fault)
  deriving DecidableEq

/-- The status word for a frame with this defect. -/
def Defect.status : Defect → Bytes
  | framing => [0x67, 0x00]
  | unknownInstruction | unhandledInstruction => [0x6D, 0x00]
  | foreignClass => [0x6E, 0x00]
  | parameters => [0x6B, 0x00]
  | objects => [0x6F, 0x00]
  | field fault => fault.status

/-- The defect of these bytes that comes first. Each one presupposes that those before it are not there. -/
inductive FirstDefect : Bytes → Defect → Prop
  | framing {bytes : Bytes} (hnone : ∀ f : Frame, f.bytes ≠ bytes) : FirstDefect bytes .framing
  | unknownInstruction (f : Frame) (hnone : ∀ i : Instruction, i.byte ≠ f.ins) :
    FirstDefect f.bytes .unknownInstruction
  | foreignClass (f : Frame) (i : Instruction) (hins : f.ins = i.byte)
      (hclass : f.cla ≠ if i = .select then 0x00 else 0x80) : FirstDefect f.bytes .foreignClass
  | unhandledInstruction (f : Frame) (i : Instruction) (hins : f.ins = i.byte) (hclass : f.cla = 0x80)
      (hother : i ∉ [.select, .auth0, .auth1, .controlFlow]) : FirstDefect f.bytes .unhandledInstruction
  | parameters (f : Frame) (hins : f.ins = Instruction.select.byte) (hclass : f.cla = 0x00)
      (hparameters : ¬ (f.p1 = 0x04 ∧ f.p2 = 0x00)) : FirstDefect f.bytes .parameters
  | objects (f : Frame) {i : Instruction} {fields : List Field} (hins : f.ins = i.byte) (hclass : f.cla = 0x80)
      (hfields : i.fields? = some fields) {cause : TlvError} (hdata : decodeAll f.body.data = .error cause) :
    FirstDefect f.bytes .objects
  | field (f : Frame) {i : Instruction} {fields : List Field} (hins : f.ins = i.byte) (hclass : f.cla = 0x80)
      (hfields : i.fields? = some fields) (objects : List Tlv.Object) (hdata : decodeAll f.body.data = .ok objects)
      {fault : Fault} (hfault : firstFault? fields objects = some fault) : FirstDefect f.bytes (.field fault)

/-! ### What reading the fields comes to -/

section

variable {α β γ : Type} {fields : List Field} {tag : UInt8} {form : FieldForm} {status : Bytes}

/-- Reading ends with an error that is answered with this status word. -/
def Refused (status : Bytes) (result : Except ProtocolError α) : Prop :=
  ∃ cause, result = .error cause ∧ cause.responseCode.encode = status

/-- Reading ends with an error exactly when there is a fault, and then with one for this fault. -/
def Reports (fault? : Option Fault) (result : Except ProtocolError α) : Prop :=
  match fault? with
  | none => ∃ a, result = .ok a
  | some fault => Refused fault.status result

/-- Reading these fields from objects reports the first fault. -/
def Checks (fields : List Field) (read : List Tlv.Object → Except ProtocolError α) : Prop :=
  ∀ objects, Reports (firstFault? fields objects) (read objects)

theorem refused_of (code : ResponseCode) {cause : ProtocolError} (hcode : cause.responseCode = code)
    (hstatus : code.encode = status) : Refused status (.error cause : Except ProtocolError α) :=
  ⟨cause, rfl, by rw [hcode, hstatus]⟩

theorem reports_bind {fault₁ fault₂ : Option Fault} {x : Except ProtocolError α} {f : α → Except ProtocolError β}
    (hx : Reports fault₁ x) (hf : ∀ a, Reports fault₂ (f a)) : Reports (fault₁.or fault₂) (x >>= f) := by
  cases fault₁ with
  | none =>
    obtain ⟨a, rfl⟩ := hx
    exact hf a
  | some fault =>
    obtain ⟨cause, rfl, hstatus⟩ := hx
    exact ⟨cause, rfl, hstatus⟩

theorem reports_map {fault? : Option Fault} {x : Except ProtocolError α} (f : α → β) (hx : Reports fault? x) :
    Reports fault? (x.map f) := by
  cases fault? with
  | none =>
    obtain ⟨a, rfl⟩ := hx
    exact ⟨f a, rfl⟩
  | some fault =>
    obtain ⟨cause, rfl, hstatus⟩ := hx
    exact ⟨cause, rfl, hstatus⟩

/-! #### Values -/

theorem reports_value {take : Bytes → Except ProtocolError α} (htake : ∀ value, Reports (form.fault? value) (take value))
    (o : Tlv.Object) : Reports (form.faultOf? o) (o.value >>= take) := by
  cases o with
  | primitive _ value _ => exact htake value
  | constructed _ _ _ => exact refused_of .unspecified rfl rfl

theorem reports_firstByte (name : String) (o : Tlv.Object) :
    Reports (FieldForm.someByte.faultOf? o) (o.firstByte name) := by
  refine reports_value (fun value => ?_) o
  cases value with
  | nil => exact refused_of .unspecified rfl rfl
  | cons byte rest => exact ⟨byte, rfl⟩

theorem reports_parse (count : Nat) (name : String) (value : Bytes) :
    Reports ((FieldForm.octets count).fault? value) (Octets.parse count name value) := by
  rw [FieldForm.fault?, Octets.parse, Octets.ofList?]
  by_cases hlength : value.length = count
  · rw [if_pos hlength, dif_pos hlength]
    exact ⟨⟨value, hlength⟩, rfl⟩
  · rw [if_neg hlength, dif_neg hlength]
    exact refused_of .wrongLength rfl rfl

theorem reports_octets (count : Nat) (name : String) (o : Tlv.Object) :
    Reports ((FieldForm.octets count).faultOf? o) (o.octets count name) :=
  reports_value (reports_parse count name) o

theorem reports_readerIdentifier (o : Tlv.Object) :
    Reports ((FieldForm.octets 32).faultOf? o) (o.value >>= ReaderIdentifier.parse) :=
  reports_value (fun value => reports_map _ (reports_parse 32 "reader identifier" value)) o

theorem reports_point (o : Tlv.Object) : Reports (FieldForm.point.faultOf? o) (o.value >>= PublicKey.parse) := by
  refine reports_value (fun value => ?_) o
  rw [FieldForm.fault?, PublicKey.parse]
  cases PublicKey.decode? value with
  | none => exact refused_of .unspecified rfl rfl
  | some key => exact ⟨key, rfl⟩

/-! #### Fields -/

theorem Checks.map {read : List Tlv.Object → Except ProtocolError α} (f : α → β) (hread : Checks fields read) :
    Checks fields fun objects => (read objects).map f :=
  fun objects => reports_map f (hread objects)

theorem checks_nil (a : α) : Checks [] fun _ => .ok a := fun _ => ⟨a, rfl⟩

theorem checks_cons {field : Field} {f : List Tlv.Object → Except ProtocolError α}
    {g : α → List Tlv.Object → Except ProtocolError β} (hf : ∀ objects, Reports (field.fault? objects) (f objects))
    (hg : ∀ a, Checks fields (g a)) : Checks (field :: fields) fun objects => f objects >>= fun a => g a objects := by
  intro objects
  have hfirst : firstFault? (field :: fields) objects = (field.fault? objects).or (firstFault? fields objects) := by
    rw [firstFault?, List.findSome?_cons]
    cases field.fault? objects <;> rfl
  rw [hfirst]
  exact reports_bind (hf objects) fun a => hg a objects

theorem checks_required {take : Tlv.Object → Except ProtocolError α}
    {g : α → List Tlv.Object → Except ProtocolError β} (htake : ∀ o, Reports (form.faultOf? o) (take o))
    (hg : ∀ a, Checks fields (g a)) :
    Checks (⟨tag, form, true⟩ :: fields) fun objects =>
      require objects tag >>= fun o => take o >>= fun a => g a objects := by
  have hfield (objects : List Tlv.Object) :
      Reports ((⟨tag, form, true⟩ : Field).fault? objects) (require objects tag >>= take) := by
    unfold Field.fault? require
    rw [find?_eq_first]
    cases first tag objects with
    | none => exact refused_of .unspecified rfl rfl
    | some o => exact htake o
  simpa only [bind_assoc] using checks_cons hfield hg

theorem checks_required_bind {take : Tlv.Object → Except ProtocolError α} {parse : α → Except ProtocolError β}
    {g : β → List Tlv.Object → Except ProtocolError γ} (htake : ∀ o, Reports (form.faultOf? o) (take o >>= parse))
    (hg : ∀ b, Checks fields (g b)) :
    Checks (⟨tag, form, true⟩ :: fields) fun objects =>
      require objects tag >>= fun o => take o >>= fun a => parse a >>= fun b => g b objects := by
  simpa only [bind_assoc] using checks_required htake hg

theorem checks_optional {g : Option Bytes → List Tlv.Object → Except ProtocolError β}
    (hg : ∀ value, Checks fields (g value)) :
    Checks (⟨tag, .anything, false⟩ :: fields) fun objects =>
      optionalValue objects tag >>= fun value => g value objects := by
  refine checks_cons (fun objects => ?_) hg
  unfold Field.fault? optionalValue
  rw [find?_eq_first]
  cases first tag objects with
  | none => exact ⟨none, rfl⟩
  | some o =>
    cases o with
    | primitive _ value _ => exact ⟨some value, rfl⟩
    | constructed _ _ _ => exact refused_of .unspecified rfl rfl

end

/-! ### Commands -/

section

variable {fields : List Field}

theorem Auth0Command.checks_ofObjects (hfields : Instruction.auth0.fields? = some fields) :
    Checks fields Auth0Command.ofObjects := by
  cases hfields
  refine checks_required (reports_firstByte _) fun parameter => ?_
  refine checks_required (reports_firstByte _) fun code => ?_
  refine checks_required (reports_octets 2 _) fun version => ?_
  refine checks_required_bind reports_point fun readerEphemeral => ?_
  refine checks_required (reports_octets 16 _) fun transactionIdentifier => ?_
  exact checks_required_bind reports_readerIdentifier fun _ => checks_nil _

theorem Auth1Command.checks_ofObjects (hfields : Instruction.auth1.fields? = some fields) :
    Checks fields Auth1Command.ofObjects := by
  cases hfields
  refine checks_required (reports_firstByte _) fun parameter => ?_
  refine checks_required (reports_octets 64 _) fun readerSignature => ?_
  exact checks_optional fun _ => checks_nil _

theorem ControlFlowCommand.checks_ofObjects (hfields : Instruction.controlFlow.fields? = some fields) :
    Checks fields ControlFlowCommand.ofObjects := by
  cases hfields
  refine checks_required (reports_firstByte _) fun s1 => ?_
  refine checks_required (reports_firstByte _) fun s2 => ?_
  exact checks_optional fun _ => checks_nil _

end

namespace Request

variable {f : Frame} {i : Instruction}

theorem decode_frame (f : Frame) : decode f.bytes = ofCommand f.command := by
  rw [decode, Command.decode_eq_ok_iff.mpr ⟨f, rfl, rfl⟩]
  rfl

theorem instruction_of_byte (hins : f.ins = i.byte) : f.command.instruction = .known i := by
  show InstructionCode.ofByte f.ins = .known i
  rw [hins]
  exact InstructionCode.canonical_known i

theorem expectedClass_eq (i : Instruction) : i.expectedClass = if i = .select then 0x00 else 0x80 := by
  cases i <;> rfl

theorem expectedClass_of_fields {fields : List Field} (hfields : i.fields? = some fields) : i.expectedClass = 0x80 := by
  rw [expectedClass_eq, if_neg]
  rintro rfl
  cases hfields

theorem ofCommand_of_fields {fields : List Field} (hins : f.ins = i.byte) (hclass : f.cla = 0x80)
    (hfields : i.fields? = some fields) :
    ∃ read : List Tlv.Object → Except ProtocolError Request, Checks fields read ∧
      ofCommand f.command = Tlv.Object.parse f.body.data >>= read := by
  have hexpected : ¬ f.command.cla ≠ i.expectedClass := by
    rw [expectedClass_of_fields hfields]
    exact not_not_intro hclass
  rw [ofCommand, instruction_of_byte hins]
  dsimp only
  rw [if_neg hexpected]
  cases i with
  | auth0 =>
    exact ⟨_, (Auth0Command.checks_ofObjects hfields).map auth0, map_bind auth0 (Tlv.Object.parse _) _⟩
  | auth1 =>
    exact ⟨_, (Auth1Command.checks_ofObjects hfields).map auth1, map_bind auth1 (Tlv.Object.parse _) _⟩
  | controlFlow =>
    exact ⟨_, (ControlFlowCommand.checks_ofObjects hfields).map controlFlow,
      map_bind controlFlow (Tlv.Object.parse _) _⟩
  | select | envelope | exchange | getResponse | loadCert => cases hfields

theorem ofCommand_of_select (hins : f.ins = Instruction.select.byte) (hclass : f.cla = 0x00) :
    ofCommand f.command =
      if f.p1 = 0x04 ∧ f.p2 = 0x00 then .ok (.select ⟨f.body.data⟩) else .error (.incorrectParameters f.p1 f.p2) := by
  have hselect : ofCommand f.command = (SelectCommand.ofCommand f.command).map select := by
    rw [ofCommand, instruction_of_byte hins]
    exact if_neg (not_not_intro hclass)
  rw [hselect]
  exact apply_ite (Except.map select) _ _ _

/-! ### Frames -/

theorem decode_of_firstDefect {bytes : Bytes} {defect : Defect} (hdefect : FirstDefect bytes defect) :
    Refused defect.status (decode bytes) := by
  cases hdefect with
  | framing hnone =>
    rw [decode]
    cases hframe : Command.decode bytes with
    | error cause => exact refused_of .wrongLength rfl rfl
    | ok c =>
      obtain ⟨f, hbytes, -⟩ := Command.decode_eq_ok_iff.mp hframe
      exact absurd hbytes (hnone f)
  | unknownInstruction f hnone =>
    have hunknown : f.command.instruction = .unknown f.ins := by
      have hcanonical : InstructionCode.Canonical (.unknown f.ins) :=
        InstructionCode.canonical_iff.mpr fun i hi => hnone i (InstructionCode.unknown.inj hi).symm
      exact hcanonical
    rw [decode_frame, ofCommand, hunknown]
    exact refused_of .instructionNotSupported rfl rfl
  | foreignClass f i hins hclass =>
    rw [← expectedClass_eq] at hclass
    rw [decode_frame, ofCommand, instruction_of_byte hins]
    dsimp only
    rw [if_pos (show f.command.cla ≠ i.expectedClass from hclass)]
    exact refused_of .classNotSupported rfl rfl
  | unhandledInstruction f i hins hclass hother =>
    have hexpected : ¬ f.command.cla ≠ i.expectedClass := by
      rw [expectedClass_eq, if_neg fun hi => hother (by simp [hi])]
      exact not_not_intro hclass
    rw [decode_frame, ofCommand, instruction_of_byte hins]
    dsimp only
    rw [if_neg hexpected]
    cases i with
    | select | auth0 | auth1 | controlFlow => simp at hother
    | envelope | exchange | getResponse | loadCert => exact refused_of .instructionNotSupported rfl rfl
  | parameters f hins hclass hparameters =>
    rw [decode_frame, ofCommand_of_select hins hclass, if_neg hparameters]
    exact refused_of .incorrectP1OrP2 rfl rfl
  | objects f hins hclass hfields hdata =>
    obtain ⟨read, -, hread⟩ := ofCommand_of_fields hins hclass hfields
    rw [decode_frame, hread, Tlv.Object.parse, hdata]
    exact refused_of .unspecified rfl rfl
  | field f hins hclass hfields objects hdata hfault =>
    obtain ⟨read, hchecks, hread⟩ := ofCommand_of_fields hins hclass hfields
    have hreports := hchecks objects
    rw [hfault] at hreports
    rw [decode_frame, hread, Tlv.Object.parse, hdata]
    exact hreports

theorem exists_request_or_defect (bytes : Bytes) :
    (∃ request, decode bytes = .ok request) ∨ ∃ defect, FirstDefect bytes defect := by
  -- the cases are the checks, in their order
  by_cases hframe : ∃ f : Frame, f.bytes = bytes
  case neg => exact .inr ⟨_, .framing fun f hbytes => hframe ⟨f, hbytes⟩⟩
  obtain ⟨f, rfl⟩ := hframe
  by_cases hknown : ∃ i : Instruction, i.byte = f.ins
  case neg => exact .inr ⟨_, .unknownInstruction f fun i hbyte => hknown ⟨i, hbyte⟩⟩
  obtain ⟨i, hbyte⟩ := hknown
  by_cases hclass : f.cla = if i = .select then 0x00 else 0x80
  case neg => exact .inr ⟨_, .foreignClass f i hbyte.symm hclass⟩
  by_cases hselect : i = .select
  · subst hselect
    by_cases hparameters : f.p1 = 0x04 ∧ f.p2 = 0x00
    case neg => exact .inr ⟨_, .parameters f hbyte.symm hclass hparameters⟩
    refine .inl ⟨.select ⟨f.body.data⟩, ?_⟩
    rw [decode_frame, ofCommand_of_select hbyte.symm hclass, if_pos hparameters]
  rw [if_neg hselect] at hclass
  cases hfields : i.fields? with
  | none =>
    refine .inr ⟨_, .unhandledInstruction f i hbyte.symm hclass fun hmem => ?_⟩
    cases i <;> simp [Instruction.fields?] at hmem hfields hselect
  | some fields =>
    cases hdata : decodeAll f.body.data with
    | error cause => exact .inr ⟨_, .objects f hbyte.symm hclass hfields hdata⟩
    | ok objects =>
      cases hfault : firstFault? fields objects with
      | some fault => exact .inr ⟨_, .field f hbyte.symm hclass hfields objects hdata hfault⟩
      | none =>
        obtain ⟨read, hchecks, hread⟩ := ofCommand_of_fields hbyte.symm hclass hfields
        have hreports := hchecks objects
        rw [hfault] at hreports
        left
        rw [decode_frame, hread, Tlv.Object.parse, hdata]
        exact hreports

end Request

end TapAccess
