import TapAccess.Message.Auth1
import TapAccess.Message.Select
import TapAccess.Proofs.Message.Commands

/-!
# Reading responses that were written

The answers to SELECT and AUTH0 and the message inside the answer to AUTH1 are read back from what was
written, as long as every length can be written (`Tlv.Object.Encodable`). For SELECT that is a bound on the
number of versions, which come back as the list they were (`Versions.decodeOffer_encode`).
-/

namespace TapAccess

open Tlv.Object

theorem Tlv.Object.parse_encode {o : Tlv.Object} (hencodable : Encodable o) : parse (encode o) = .ok [o] := by
  have hsingle : encode o = encodeAll [o] := by rw [encodeAll, encodeAll, List.append_nil]
  rw [hsingle, parse_encodeAll]
  rw [AllEncodable, AllEncodable]
  exact ⟨hencodable, trivial⟩

/-! ### SELECT -/

namespace SelectResponse

theorem ofResponse_toResponse {r : SelectResponse} (hencodable : Encodable r.toObject) :
    ofResponse r.toResponse = .ok r := by
  have hparse : Tlv.Object.parse r.toResponse.payload = .ok [r.toObject] := parse_encode hencodable
  -- the outer object, and what it and the inner one hold
  obtain ⟨inner, hinner⟩ : ∃ inner, inner = Tlv.Object.ofChildren 0xA5 ([
      .ofValue 0x80 r.capabilityType, .ofValue 0x81 r.supportedVersions]
      ++ (r.capabilities.map fun capabilities => Tlv.Object.ofValue 0x82 capabilities).toList) := ⟨_, rfl⟩
  have hchildren : r.toObject.children = [.ofValue 0x84 r.selectedAid, inner] := by
    rw [hinner]
    rfl
  have h6F : require [r.toObject] 0x6F = .ok r.toObject := rfl
  have hA5 : require [.ofValue 0x84 r.selectedAid, inner] 0xA5 = .ok inner := by
    rw [hinner]
    rfl
  have h84 : require [.ofValue 0x84 r.selectedAid, inner] 0x84 = .ok (.ofValue 0x84 r.selectedAid) := rfl
  have h81 : require inner.children 0x81 = .ok (.ofValue 0x81 r.supportedVersions) := by
    rw [hinner]
    rfl
  have h80 : require inner.children 0x80 = .ok (.ofValue 0x80 r.capabilityType) := by
    rw [hinner]
    rfl
  have h82 : optionalValue inner.children 0x82 = .ok r.capabilities := by
    rw [hinner]
    cases r.capabilities <;> rfl
  simp [ofResponse, hparse, h6F, hchildren, hA5, h84, h81, h80, h82]

theorem encodable_ofVersions {v : Versions} (hfew : v.supported.length < 2 ^ 30) :
    Encodable (ofVersions v).toObject := by
  have hlength := v.length_encode
  obtain ⟨inner, hinner⟩ : ∃ inner, inner =
      [Tlv.Object.ofValue 0x80 [0x00, 0x00], Tlv.Object.ofValue 0x81 v.encode] := ⟨_, rfl⟩
  have htotal : totalSize inner ≤ v.encode.length + 14 := by
    have htypes := enclosingSize_one_le 2
    have hversions := enclosingSize_one_le v.encode.length
    rw [hinner]
    show enclosingSize 1 2 + (enclosingSize 1 v.encode.length + 0) ≤ _
    omega
  have hdetails := enclosingSize_one_le (totalSize inner)
  have haid := enclosingSize_one_le 8
  have hall : AllEncodable inner := by
    rw [hinner, AllEncodable, AllEncodable, AllEncodable, encodable_ofValue_iff, encodable_ofValue_iff]
    exact ⟨by decide, by omega, trivial⟩
  have hobject : (ofVersions v).toObject =
      Tlv.Object.ofChildren 0x6F [.ofValue 0x84 SelectCommand.accessAid, .ofChildren 0xA5 inner] := by
    rw [hinner]
    rfl
  rw [hobject, Tlv.Object.ofChildren, Tlv.Object.Encodable, AllEncodable, AllEncodable, AllEncodable,
    encodable_ofValue_iff, Tlv.Object.ofChildren, Tlv.Object.Encodable]
  refine ⟨?_, by decide, ⟨by omega, hall⟩, trivial⟩
  show enclosingSize 1 8 + (enclosingSize 1 (totalSize inner) + 0) < _
  omega

end SelectResponse

/-! ### AUTH0 -/

namespace Auth0Response

theorem allEncodable_toObjects (r : Auth0Response) : AllEncodable r.toObjects := by
  unfold toObjects
  cases r.cryptogram with
  | none => simp [AllEncodable, Tlv.Object.endpointEphemeral, encodable_ofValue_iff]
  | some cryptogram => simp [AllEncodable, Tlv.Object.endpointEphemeral, encodable_ofValue_iff]

theorem ofResponse_toResponse (r : Auth0Response) : ofResponse r.toResponse = .ok r := by
  have hparse : Tlv.Object.parse r.toResponse.payload = .ok r.toObjects :=
    parse_encodeAll r.allEncodable_toObjects
  have h86 : require r.toObjects 0x86 = .ok (.ofValue 0x86 r.endpointEphemeral.encode.toList) := rfl
  have h9D : optionalValue r.toObjects 0x9D = .ok (r.cryptogram.map Octets.toList) := by
    unfold toObjects
    cases r.cryptogram <;> rfl
  have hcryptogram : (r.cryptogram.map Octets.toList).mapM (Octets.parse 16 "cryptogram")
      = .ok r.cryptogram := by
    cases r.cryptogram with
    | none => rfl
    | some cryptogram =>
      show (Octets.parse 16 "cryptogram" cryptogram.toList).map some = _
      rw [Octets.parse_toList]
      rfl
  simp [ofResponse, hparse, ofObjects, h86, h9D, hcryptogram]

theorem payload_of_some (endpointEphemeral : PublicKey) (cryptogram : Cryptogram) :
    (toResponse ⟨endpointEphemeral, some cryptogram⟩).payload =
      (toResponse ⟨endpointEphemeral, none⟩).payload ++ [0x9D, 0x10] ++ cryptogram.toList := by
  have hcryptogram : Tlv.Object.encode (.ofValue 0x9D cryptogram.toList) = [0x9D, 0x10] ++ cryptogram.toList := by
    rw [Tlv.Object.ofValue, Tlv.Object.encode, Octets.length_toList]
    rfl
  show encodeAll [_, .ofValue 0x9D cryptogram.toList] = encodeAll [_] ++ _ ++ _
  simp only [encodeAll, hcryptogram, List.append_nil, List.append_assoc]

theorem length_payload_of_none (endpointEphemeral : PublicKey) :
    (toResponse ⟨endpointEphemeral, none⟩).payload.length = 67 := by
  show (encodeAll [Tlv.Object.endpointEphemeral _]).length = 67
  simp only [Tlv.Object.endpointEphemeral, length_encodeAll_cons, length_encode_ofValue, Octets.length_toList,
    Nat.reduceLT]
  rfl

theorem length_payload_of_some (endpointEphemeral : PublicKey) (cryptogram : Cryptogram) :
    (toResponse ⟨endpointEphemeral, some cryptogram⟩).payload.length = 85 := by
  rw [payload_of_some, List.length_append, List.length_append, length_payload_of_none, Octets.length_toList]
  rfl

theorem encode_of_some (endpointEphemeral : PublicKey) (cryptogram : Cryptogram) :
    (toResponse ⟨endpointEphemeral, some cryptogram⟩).encode =
      (toResponse ⟨endpointEphemeral, none⟩).payload ++ [0x9D, 0x10] ++ cryptogram.toList ++ [0x90, 0x00] := by
  rw [← payload_of_some]
  exact Response.encode_ok _

end Auth0Response

/-! ### AUTH1 -/

namespace Auth1Plaintext

theorem decode_encode {m : Auth1Plaintext} (hencodable : AllEncodable m.toObjects) :
    decode m.encode = .ok m := by
  have hparse : Tlv.Object.parse m.encode = .ok m.toObjects := parse_encodeAll hencodable
  have h9E : require m.toObjects 0x9E = .ok (.ofValue 0x9E m.endpointSignature.toList) := by
    unfold toObjects
    cases m.endpointKey <;> cases m.keySlot <;> rfl
  have h5A : optionalValue m.toObjects 0x5A = .ok (m.endpointKey.map fun key => key.encode.toList) := by
    unfold toObjects
    cases m.endpointKey <;> cases m.keySlot <;> rfl
  have h4E : optionalValue m.toObjects 0x4E = .ok m.keySlot := by
    unfold toObjects
    cases m.endpointKey <;> cases m.keySlot <;> rfl
  have hkey : (m.endpointKey.map fun key => key.encode.toList).mapM PublicKey.parse = .ok m.endpointKey := by
    cases m.endpointKey with
    | none => rfl
    | some key =>
      show (PublicKey.parse key.encode.toList).map some = _
      rw [PublicKey.parse_encode]
      rfl
  simp [decode, hparse, ofObjects, h9E, h5A, h4E, hkey]

theorem length_encode (signature : Signature) (key : PublicKey) :
    (encode ⟨signature, some key, none⟩).length = 136 := by
  show (encodeAll [_, _, _]).length = 136
  simp only [length_encodeAll_cons, length_encode_ofValue, Octets.length_toList, List.length_cons,
    List.length_nil, Nat.reduceAdd, Nat.reduceLT]
  rfl

theorem decode_encode_named (signature : Signature) (key : PublicKey) :
    decode (encode ⟨signature, some key, none⟩) = .ok ⟨signature, some key, none⟩ := by
  refine decode_encode (allEncodable_of_length _ ?_)
  show (encode _).length < 2 ^ 32
  rw [length_encode]
  decide

end Auth1Plaintext

end TapAccess
