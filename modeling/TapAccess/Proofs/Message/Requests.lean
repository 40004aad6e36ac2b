import TapAccess.Proofs.Message.Commands

/-!
# Requests as a whole

`requests_round_trip` goes through all that is put around a request's fields, from the objects over their length
fields to the two forms of a frame. Every request can be written. When its data fits into a frame it is read back,
and when it does not its bytes are refused, so that they are never taken for another request.

A transaction code is written as its byte. So an AUTH0 request is read back as it was only if it does not spell a
byte that has a name (`TransactionCode.canonical_iff`).
-/

namespace TapAccess

open Tlv.Object

namespace TransactionCode

/-- The code is what its byte is read as. -/
def Canonical (c : TransactionCode) : Prop := ofByte c.byte = c

instance (c : TransactionCode) : Decidable c.Canonical := inferInstanceAs (Decidable (_ = _))

/-- Only a byte that has a name can go by something else. -/
theorem canonical_iff (c : TransactionCode) : c.Canonical ↔ ∀ entry ∈ named, c ≠ .other entry.2.byte := by
  have hnamed (p : UInt8 → Prop) : (∀ entry ∈ named, p entry.2.byte) ↔ p 0x01 ∧ p 0x02 ∧ p 0x03 ∧ p 0xEF := by
    simp [named, byte]
  rw [hnamed fun b => c ≠ .other b]
  cases c with
  | other b =>
    simp only [Canonical, byte, ofByte, ne_eq, other.injEq]
    grind
  | _ => simp [Canonical, byte, ofByte]

end TransactionCode

namespace Request

/-! ### Writing, with every tag looked at -/

/-- The frame of a request. -/
def toCommand : Request → Command
  | select command => command.toCommand
  | auth0 command => command.toCommand
  | auth1 command => command.toCommand
  | controlFlow command => command.toCommand

/-- The tags and values of the objects in a request's data. SELECT has none, its data is the name. -/
def fields : Request → List (UInt8 × Bytes)
  | select _ => []
  | auth0 command => [
    (0x41, [command.parameter]),
    (0x42, [command.transactionCode.byte]),
    (0x5C, command.version.encode.toList),
    (0x87, command.readerEphemeral.encode.toList),
    (0x4C, command.transactionIdentifier.toList),
    (0x4D, command.readerIdentifier.encode.toList)]
  | auth1 command =>
    (0x41, [if command.endpointKeyRequested then 0x01 else 0x00]) :: (0x9E, command.readerSignature.toList) ::
      (command.certificate.map fun certificate => (0x90, certificate)).toList
  | controlFlow command =>
    (0x41, [command.s1]) :: (0x42, [command.s2]) :: (command.domainData.map fun data => (0x43, data)).toList

/-- The data of a request, put together from objects whose tags are looked at one by one. -/
def data? : Request → Except Tlv.TlvError Bytes
  | select command => .ok command.aid
  | request => (ofFields? request.fields).map encodeAll

/-- The bytes of a request, or the reason why one of its objects cannot be made. -/
def encode? (r : Request) : Except ProtocolError Bytes := do
  let data ← r.data?.mapError ProtocolError.tlv
  return Command.encode { r.toCommand with data }

theorem encode_toCommand (r : Request) : r.toCommand.encode = r.encode := by
  cases r <;> rfl

theorem data?_eq (r : Request) : r.data? = .ok r.toCommand.data := by
  have hobjects {fields : List (UInt8 × Bytes)} {objects : List Tlv.Object}
      (hfields : ofFields? fields = .ok objects) :
      (ofFields? fields).map encodeAll = .ok (encodeAll objects) := by rw [hfields]; rfl
  cases r with
  | select command => rfl
  | auth0 command =>
    exact hobjects (ofFields?_cons (ofFields?_cons (ofFields?_cons (ofFields?_cons (ofFields?_cons
      (ofFields?_cons ofFields?_nil))))))
  | auth1 command => exact hobjects (ofFields?_cons (ofFields?_cons ofFields?_optional))
  | controlFlow command => exact hobjects (ofFields?_cons (ofFields?_cons ofFields?_optional))

theorem encode?_eq (r : Request) : r.encode? = .ok r.encode := by
  rw [encode?, data?_eq, ← encode_toCommand]
  rfl

/-! ### Reading -/

/-- The request with its transaction code under the name that its byte has. -/
def named : Request → Request
  | auth0 command => .auth0 command.named
  | request => request

/-- The transaction code, where there is one, goes by the name that its byte has. -/
def Canonical : Request → Prop
  | auth0 command => command.transactionCode.Canonical
  | _ => True

theorem named_of_canonical {r : Request} (hcanonical : r.Canonical) : r.named = r := by
  cases r with
  | auth0 command =>
    show Request.auth0 { command with transactionCode := .ofByte command.transactionCode.byte } = _
    rw [show TransactionCode.ofByte command.transactionCode.byte = command.transactionCode from hcanonical]
  | _ => rfl

theorem decode_of_short {r : Request} (hdata : r.toCommand.data.length ≤ 65535) :
    Request.decode r.encode = .ok r.named := by
  cases r with
  | select command => exact SelectCommand.decode_encode hdata
  | auth0 command => exact command.decode_encode
  | auth1 command => exact Auth1Command.decode_encode hdata
  | controlFlow command => exact ControlFlowCommand.decode_encode hdata

theorem decode_of_long {r : Request} (hdata : 65535 < r.toCommand.data.length) :
    Request.decode r.encode = .error (.malformedApdu "extended L_c does not match the payload") := by
  rw [← encode_toCommand, Request.decode, Command.decode_encode_of_long hdata]
  rfl

end Request

/-- A request can always be written. Its bytes are read as that request when its data fits into a frame, and as none
when it does not. -/
theorem requests_round_trip (r : Request) :
    r.encode? = .ok r.encode ∧
    (r.Canonical → r.toCommand.data.length ≤ 65535 → Request.decode r.encode = .ok r) ∧
    (65535 < r.toCommand.data.length →
      Request.decode r.encode = .error (.malformedApdu "extended L_c does not match the payload")) := by
  refine ⟨r.encode?_eq, fun hcanonical hshort => ?_, Request.decode_of_long⟩
  rw [Request.decode_of_short hshort, Request.named_of_canonical hcanonical]

/-- An AUTH1 request with a certificate of so many bytes. -/
def certified (count : Nat) : Request :=
  .auth1 ⟨true, .replicate 64 0x11, some (List.replicate count 0x22)⟩

theorem length_data_certified (count : Nat) :
    (certified count).toCommand.data.length = 70 + (lengthField count).length + count := by
  show (encodeAll [.firstParameter 0x01, .ofValue 0x9E (Octets.replicate 64 0x11).toList,
    .ofValue 0x90 (List.replicate count 0x22)]).length = _
  simp only [length_encodeAll_cons, firstParameter, length_encode_ofValue_eq, Octets.length_toList,
    List.length_replicate, List.length_cons, List.length_nil]
  have hnone : (encodeAll []).length = 0 := rfl
  have hone : (lengthField (0 + 1)).length = 1 := rfl
  have hsignature : (lengthField 64).length = 1 := rfl
  omega

/-- A named transaction code is read back, and so is the longest certificate that fits. One byte more does not. -/
theorem requests_round_trip_at_limit :
    Request.decode (Request.auth0 ⟨true, .lock, 0x0100, .generator, .replicate 16 0x03,
      ⟨.replicate 16 0x01, .replicate 16 0x02⟩⟩).encode = .ok (.auth0 ⟨true, .lock, 0x0100, .generator,
        .replicate 16 0x03, ⟨.replicate 16 0x01, .replicate 16 0x02⟩⟩) ∧
    Request.decode (certified 65462).encode = .ok (certified 65462) ∧
    Request.decode (certified 65463).encode =
      .error (.malformedApdu "extended L_c does not match the payload") := by
  have hfits := length_data_certified 65462
  have hlonger := length_data_certified 65463
  rw [show (lengthField 65462).length = 3 by decide +kernel] at hfits
  rw [show (lengthField 65463).length = 3 by decide +kernel] at hlonger
  refine ⟨(requests_round_trip _).2.1 ?_ ?_, (requests_round_trip _).2.1 trivial ?_, (requests_round_trip _).2.2 ?_⟩
  · show TransactionCode.Canonical .lock
    decide
  · show (encodeAll (Auth0Command.toObjects _)).length ≤ 65535
    rw [Auth0Command.length_encodeAll]
    decide
  · omega
  · omega

end TapAccess
