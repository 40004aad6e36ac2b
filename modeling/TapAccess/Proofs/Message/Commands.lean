import TapAccess.Message.Request
import TapAccess.Proofs.Apdu.Frames
import TapAccess.Proofs.Tlv.Lookup
import TapAccess.Proofs.Versions

/-!
# Reading commands that were written

Each of the four commands is read back from its bytes as long as its data fits into a frame: the frame is read
back (`Command.decode_encode`), the objects in its data are (`parse_encodeAll`), and each field is the first
object with its tag. Only the transaction code of AUTH0 comes back under the name that its byte has.
-/

namespace TapAccess

open Tlv.Object

@[simp] theorem PublicKey.parse_encode (k : PublicKey) : PublicKey.parse k.encode.toList = .ok k := by
  obtain ⟨x, y, hx, hy, honcurve⟩ := k
  have hp : P256.p < 256 ^ 32 := by decide
  have htoNat {v : Nat} (hv : v < P256.p) : Bytes.toNat (Octets.ofNat 32 v).toList = v :=
    Octets.toNat_ofNat_of_lt (Nat.lt_trans hv hp)
  have hlength (v : Nat) : (Octets.ofNat 32 v).toList.length = 32 := Octets.length_toList _
  have hdecode : PublicKey.decode? (PublicKey.encode ⟨x, y, hx, hy, honcurve⟩).toList
      = some ⟨x, y, hx, hy, honcurve⟩ := by
    show PublicKey.decode? (PublicKey.uncompressed ::
      ((Octets.ofNat 32 x).toList ++ (Octets.ofNat 32 y).toList)) = _
    rw [PublicKey.decode?, if_pos ⟨rfl, by rw [List.length_append, hlength, hlength]⟩,
      List.take_left' (hlength x), List.drop_left' (hlength x), htoNat hx, htoNat hy,
      PublicKey.ofCoordinates?, dif_pos ⟨hx, hy, honcurve⟩]
  rw [PublicKey.parse, hdecode]

/-- The frame of a command is read back, so that only its fields are left to be read. -/
theorem Request.decode_encode {c : Command} (hinstruction : c.instruction.Canonical)
    (hdata : c.data.length ≤ 65535) (hle : c.le ≤ 65536) : Request.decode c.encode = Request.ofCommand c := by
  rw [Request.decode, Command.decode_encode hinstruction hdata hle]
  rfl

theorem Tlv.Object.parse_data {objects : List Tlv.Object} (hdata : (encodeAll objects).length ≤ 65535) :
    parse (encodeAll objects) = .ok objects :=
  parse_encodeAll (allEncodable_of_length objects (Nat.lt_of_le_of_lt hdata (by decide)))

theorem maxShortLe_le : Command.maxShortLe ≤ 65536 := by decide

/-! ### SELECT -/

theorem SelectCommand.decode_encode {c : SelectCommand} (haid : c.aid.length ≤ 65535) :
    Request.decode c.encode = .ok (.select c) := by
  rw [SelectCommand.encode, Request.decode_encode (InstructionCode.canonical_known _) haid maxShortLe_le]
  rfl

/-! ### AUTH0 -/

@[simp] theorem TransactionCode.byte_ofByte (b : UInt8) : (TransactionCode.ofByte b).byte = b := by
  unfold TransactionCode.ofByte
  split
  · next h => exact h.symm
  · split
    · next h => exact h.symm
    · split
      · next h => exact h.symm
      · split
        · next h => exact h.symm
        · rfl

namespace Auth0Command

/-- The command with its transaction code under the name that its byte has. -/
def named (c : Auth0Command) : Auth0Command := { c with transactionCode := .ofByte c.transactionCode.byte }

theorem flag_named (c : Auth0Command) : c.named.flag = c.flag := by
  apply Octets.ext
  show [c.parameter, (TransactionCode.ofByte c.transactionCode.byte).byte] = _
  rw [TransactionCode.byte_ofByte]
  rfl

theorem parameter_and_one (c : Auth0Command) : decide (c.parameter &&& 0x01 ≠ 0) = c.fast := by
  unfold parameter
  cases c.fast <;> rfl

/-- The frame of the command with any parameter byte. -/
def frameWith (c : Auth0Command) (parameter : UInt8) : Command :=
  { c.toCommand with data := encodeAll (.firstParameter parameter :: c.toObjects.tail) }

/-- Of the parameter byte only the lowest bit counts. -/
theorem ofObjects_withParameter (c : Auth0Command) (parameter : UInt8) :
    ofObjects (.firstParameter parameter :: c.toObjects.tail) =
      .ok { c.named with fast := parameter &&& 0x01 ≠ 0 } := by
  obtain ⟨objects, hobjects⟩ : ∃ objects, objects = Tlv.Object.firstParameter parameter :: c.toObjects.tail :=
    ⟨_, rfl⟩
  have h41 : require objects 0x41 = .ok (.ofValue 0x41 [parameter]) := by rw [hobjects]; rfl
  have h42 : require objects 0x42 = .ok (.ofValue 0x42 [c.transactionCode.byte]) := by rw [hobjects]; rfl
  have h5C : require objects 0x5C = .ok (.ofValue 0x5C c.version.encode.toList) := by rw [hobjects]; rfl
  have h87 : require objects 0x87 = .ok (.ofValue 0x87 c.readerEphemeral.encode.toList) := by rw [hobjects]; rfl
  have h4C : require objects 0x4C = .ok (.ofValue 0x4C c.transactionIdentifier.toList) := by rw [hobjects]; rfl
  have h4D : require objects 0x4D = .ok (.ofValue 0x4D c.readerIdentifier.encode.toList) := by rw [hobjects]; rfl
  rw [← hobjects]
  simp [ofObjects, h41, h42, h5C, h87, h4C, h4D, named]

theorem length_withParameter (c : Auth0Command) (parameter : UInt8) :
    (encodeAll (.firstParameter parameter :: c.toObjects.tail)).length = 129 := by
  simp only [toObjects, List.tail_cons, firstParameter, secondParameter, Tlv.Object.readerEphemeral,
    Tlv.Object.transactionIdentifier, Tlv.Object.readerIdentifier, length_encodeAll_cons, length_encode_ofValue,
    Octets.length_toList, List.length_cons, List.length_nil, Nat.reduceAdd, Nat.reduceLT]
  rfl

theorem length_data_frameWith_le (c : Auth0Command) (parameter : UInt8) :
    (c.frameWith parameter).data.length ≤ 65535 := by
  show (encodeAll _).length ≤ _
  rw [length_withParameter]
  decide

theorem decode_frameWith (c : Auth0Command) (parameter : UInt8) :
    Request.decode (c.frameWith parameter).encode =
      .ok (.auth0 { c.named with fast := parameter &&& 0x01 ≠ 0 }) := by
  have hdata := c.length_data_frameWith_le parameter
  rw [Request.decode_encode (InstructionCode.canonical_known _) hdata maxShortLe_le]
  show (ofCommand (c.frameWith parameter)).map Request.auth0 = _
  have hparse : Tlv.Object.parse (c.frameWith parameter).data = .ok _ := parse_data hdata
  rw [ofCommand, hparse]
  show (ofObjects (.firstParameter parameter :: c.toObjects.tail)).map Request.auth0 = _
  rw [ofObjects_withParameter]
  rfl

theorem length_encodeAll (c : Auth0Command) : (encodeAll c.toObjects).length = 129 :=
  c.length_withParameter c.parameter

theorem decode_encode (c : Auth0Command) : Request.decode c.encode = .ok (.auth0 c.named) := by
  have hdecode := c.decode_frameWith c.parameter
  rw [parameter_and_one] at hdecode
  exact hdecode

end Auth0Command

/-! ### AUTH1 -/

namespace Auth1Command

theorem ofObjects_toObjects (c : Auth1Command) : ofObjects c.toObjects = .ok c := by
  have h41 : require c.toObjects 0x41 = .ok (.ofValue 0x41 [if c.endpointKeyRequested then 0x01 else 0x00]) :=
    rfl
  have h9E : require c.toObjects 0x9E = .ok (.ofValue 0x9E c.readerSignature.toList) := rfl
  have h90 : optionalValue c.toObjects 0x90 = .ok c.certificate := by
    unfold toObjects
    cases c.certificate <;> rfl
  have hrequested : decide ((if c.endpointKeyRequested then (0x01 : UInt8) else 0x00) &&& 0x01 ≠ 0)
      = c.endpointKeyRequested := by
    cases c.endpointKeyRequested <;> rfl
  simp only [ofObjects, h41, h9E, h90, hrequested, firstByte_ofValue, octets_ofValue, Except.ok_bind, Except.pure_eq_ok]

theorem decode_encode {c : Auth1Command} (hdata : c.toCommand.data.length ≤ 65535) :
    Request.decode c.encode = .ok (.auth1 c) := by
  rw [encode, Request.decode_encode (InstructionCode.canonical_known _) hdata maxShortLe_le]
  show (ofCommand c.toCommand).map Request.auth1 = _
  have hparse : Tlv.Object.parse c.toCommand.data = .ok c.toObjects := parse_data hdata
  rw [ofCommand, hparse]
  show (ofObjects c.toObjects).map Request.auth1 = _
  rw [ofObjects_toObjects]
  rfl

theorem decode_ofSignature (signature : Signature) :
    Request.decode (ofSignature signature).encode = .ok (.auth1 (ofSignature signature)) := by
  refine decode_encode ?_
  show (encodeAll [firstParameter _, _]).length ≤ 65535
  simp only [firstParameter, length_encodeAll_cons, length_encode_ofValue, Octets.length_toList, List.length_cons,
    List.length_nil, Nat.reduceAdd, Nat.reduceLT]
  decide

end Auth1Command

/-! ### CONTROL_FLOW -/

namespace ControlFlowCommand

theorem ofObjects_toObjects (c : ControlFlowCommand) : ofObjects c.toObjects = .ok c := by
  obtain ⟨s1, s2, domainData⟩ := c
  cases domainData <;> rfl

theorem decode_encode {c : ControlFlowCommand} (hdata : c.toCommand.data.length ≤ 65535) :
    Request.decode c.encode = .ok (.controlFlow c) := by
  rw [encode, Request.decode_encode (InstructionCode.canonical_known _) hdata (Nat.zero_le _)]
  show (ofCommand c.toCommand).map Request.controlFlow = _
  have hparse : Tlv.Object.parse c.toCommand.data = .ok c.toObjects := parse_data hdata
  rw [ofCommand, hparse]
  show (ofObjects c.toObjects).map Request.controlFlow = _
  rw [ofObjects_toObjects]
  rfl

theorem decode_success : Request.decode success.encode = .ok (.controlFlow success) := by
  refine decode_encode ?_
  show (encodeAll [firstParameter _, secondParameter _]).length ≤ 65535
  simp only [firstParameter, secondParameter, length_encodeAll_cons, length_encode_ofValue, List.length_cons,
    List.length_nil, Nat.reduceAdd, Nat.reduceLT]
  decide

end ControlFlowCommand

end TapAccess
