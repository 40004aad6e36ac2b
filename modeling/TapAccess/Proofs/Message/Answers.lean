import TapAccess.Proofs.Endpoint.Countersignature

/-!
# Answers on their way through bytes

`answers_round_trip` follows an answer from the side that writes it to the side that reads it: its objects are made,
they and a status word become bytes, the bytes are split again and the fields are looked for. The answer to AUTH1
is sealed in between, and the same channel opens it.

The objects of an answer to SELECT stand inside one another, and the length of the outer ones is computed from sizes
that are too small for contents of 127 bytes. The reader counts in the same way, so the answer still comes back
(`Tlv.Object.parse_encode`).
-/

namespace TapAccess

open Tlv.Object

/-! ### Writing, with every tag looked at -/

namespace SelectResponse

/-- The object of the answer, put together from objects whose tags are looked at one by one. -/
def toObject? (r : SelectResponse) : Except Tlv.TlvError Tlv.Object := do
  let details ← ofFields? ((0x80, r.capabilityType) :: (0x81, r.supportedVersions) ::
    (r.capabilities.map fun capabilities => (0x82, capabilities)).toList)
  let aid ← primitive? 0x84 r.selectedAid
  let inner ← constructed? 0xA5 details
  constructed? 0x6F [aid, inner]

def toResponse? (r : SelectResponse) : Except ProtocolError Response :=
  (r.toObject?.map fun object => Response.ok object.encode).mapError ProtocolError.tlv

theorem toResponse?_eq (r : SelectResponse) : r.toResponse? = .ok r.toResponse := by
  have hdetails : ofFields? ((0x80, r.capabilityType) :: (0x81, r.supportedVersions) ::
      (r.capabilities.map fun capabilities => (0x82, capabilities)).toList) =
        .ok (.ofValue 0x80 r.capabilityType :: .ofValue 0x81 r.supportedVersions ::
          (r.capabilities.map fun capabilities => .ofValue 0x82 capabilities).toList) :=
    ofFields?_cons (ofFields?_cons ofFields?_optional)
  have haid := primitive?_eq_ok 0x84 r.selectedAid (by decide) (by decide)
  have hinner (details : List Tlv.Object) := constructed?_eq_ok 0xA5 details (by decide) (by decide)
  have houter (details : List Tlv.Object) := constructed?_eq_ok 0x6F details (by decide) (by decide)
  have hobject : r.toObject? = .ok r.toObject := by
    simp only [toObject?, hdetails, haid, hinner, houter, Except.ok_bind]
    rfl
  rw [toResponse?, hobject]
  rfl

end SelectResponse

namespace Auth0Response

/-- The tags and values of the objects in an answer to AUTH0. -/
def fields (r : Auth0Response) : List (UInt8 × Bytes) :=
  (0x86, r.endpointEphemeral.encode.toList) ::
    (r.cryptogram.map fun cryptogram => (0x9D, cryptogram.toList)).toList

def toResponse? (r : Auth0Response) : Except ProtocolError Response :=
  ((ofFields? r.fields).map fun objects => Response.ok (encodeAll objects)).mapError ProtocolError.tlv

theorem toResponse?_eq (r : Auth0Response) : r.toResponse? = .ok r.toResponse := by
  have hobjects : ofFields? r.fields = .ok r.toObjects := ofFields?_cons ofFields?_optional
  rw [toResponse?, hobjects]
  rfl

end Auth0Response

namespace Auth1Plaintext

/-- The tags and values of the objects that are sealed. -/
def fields (m : Auth1Plaintext) : List (UInt8 × Bytes) :=
  (m.endpointKey.map fun key => (0x5A, key.encode.toList)).toList
    ++ (m.keySlot.map fun slot => (0x4E, slot)).toList
    ++ [(0x9E, m.endpointSignature.toList), (0x5E, [0x00])]

def encode? (m : Auth1Plaintext) : Except ProtocolError Bytes :=
  ((ofFields? m.fields).map encodeAll).mapError ProtocolError.tlv

theorem encode?_eq (m : Auth1Plaintext) : m.encode? = .ok m.encode := by
  have hobjects : ofFields? m.fields = .ok m.toObjects :=
    ofFields?_append (ofFields?_append ofFields?_optional ofFields?_optional)
      (ofFields?_cons (ofFields?_cons ofFields?_nil))
  rw [encode?, hobjects]
  rfl

theorem length_encode_le {m : Auth1Plaintext} (hencodable : AllEncodable m.toObjects) :
    m.encode.length ≤ Gcm.maxLength := by
  have hfew : m.toObjects.length ≤ 4 := by
    unfold toObjects
    cases m.endpointKey <;> cases m.keySlot <;> simp
  have hprimitive : ∀ o ∈ m.toObjects, o.tag.isConstructed = false := by
    unfold toObjects
    cases m.endpointKey <;> cases m.keySlot <;> simp [isConstructed_ofValue]
  have hlength := length_encodeAll_le hprimitive hencodable
  show (encodeAll m.toObjects).length ≤ 0x1000000000
  omega

end Auth1Plaintext

/-- What is sealed for a channel with keys, its objects made from tags that are looked at. -/
def Auth1Response.encrypt? (channel : Channel) (message : Auth1Plaintext) :
    Except ProtocolError (Channel × Auth1Response) := do
  let (channel, ciphertext) ← channel.encrypt (← message.encode?)
  return (channel, ⟨.known .ok, ciphertext⟩)

theorem Auth1Response.encrypt?_eq (channel : Channel) (message : Auth1Plaintext) :
    encrypt? channel message = encrypt channel message := by
  rw [encrypt?, Auth1Plaintext.encode?_eq]
  rfl

/-! ### Round trips -/

theorem SelectResponse.round_trip {r : SelectResponse} (hencodable : Encodable r.toObject) :
    (do
      let response ← r.toResponse?
      SelectResponse.ofResponse (← Response.parse response.encode)) = .ok r := by
  have hparse : Response.parse r.toResponse.encode = .ok r.toResponse :=
    Response.parse_encode_ok r.toObject.encode
  simp only [r.toResponse?_eq, hparse, Except.ok_bind]
  exact ofResponse_toResponse hencodable

theorem Auth0Response.round_trip (r : Auth0Response) :
    (do
      let response ← r.toResponse?
      Auth0Response.ofResponse (← Response.parse response.encode)) = .ok r := by
  have hparse : Response.parse r.toResponse.encode = .ok r.toResponse :=
    Response.parse_encode_ok (encodeAll r.toObjects)
  simp only [r.toResponse?_eq, hparse, Except.ok_bind]
  exact r.ofResponse_toResponse

theorem Auth1Response.round_trip (counter : UInt32) (keys : ChannelKeys) {m : Auth1Plaintext}
    (hencodable : AllEncodable m.toObjects) :
    ∃ answered, encrypt? ⟨counter, some keys⟩ m = .ok (⟨counter + 1, some keys⟩, answered) ∧
      (do
        let response ← Response.parse answered.toResponse.encode
        (ofResponse response).decrypt ⟨counter, some keys⟩) = .ok m := by
  obtain ⟨sealed, hsealed⟩ :=
    Gcm.exists_seal? keys.exchangeDevice (Channel.nonce counter) (Auth1Plaintext.length_encode_le hencodable)
  have hencrypt : Channel.encrypt ⟨counter, some keys⟩ m.encode = .ok (⟨counter + 1, some keys⟩, sealed) :=
    Channel.encrypt_eq_ok_iff.mpr ⟨keys, rfl, hsealed, rfl⟩
  refine ⟨⟨.known .ok, sealed⟩, ?_, ?_⟩
  · rw [encrypt?_eq]
    exact encrypt_eq_ok_iff.mpr ⟨sealed, hencrypt, rfl⟩
  · have hparse : Response.parse (Response.encode ⟨.known .ok, sealed⟩) = .ok ⟨.known .ok, sealed⟩ :=
      Response.parse_encode_ok sealed
    have hdecrypt := Channel.decrypt_of_encrypt hencrypt
    rw [toResponse, hparse]
    show decrypt ⟨.known .ok, sealed⟩ _ = _
    rw [decrypt, hdecrypt]
    exact Auth1Plaintext.decode_encode hencodable

/-- An answer comes back as it was written when its lengths can be written, the sealed one through the channel that
sealed it. Two bytes are enough for a response, and its bytes are those that it was read from. -/
theorem answers_round_trip :
    (∀ r : SelectResponse, Encodable r.toObject →
      (do
        let response ← r.toResponse?
        SelectResponse.ofResponse (← Response.parse response.encode)) = .ok r) ∧
    (∀ r : Auth0Response,
      (do
        let response ← r.toResponse?
        Auth0Response.ofResponse (← Response.parse response.encode)) = .ok r) ∧
    (∀ m : Auth1Plaintext, AllEncodable m.toObjects →
      (do Auth1Plaintext.decode (← m.encode?)) = .ok m) ∧
    (∀ (counter : UInt32) (keys : ChannelKeys) (m : Auth1Plaintext), AllEncodable m.toObjects →
      ∃ answered,
        Auth1Response.encrypt? ⟨counter, some keys⟩ m = .ok (⟨counter + 1, some keys⟩, answered) ∧
        (do
          let response ← Response.parse answered.toResponse.encode
          (Auth1Response.ofResponse response).decrypt ⟨counter, some keys⟩) = .ok m) ∧
    (∀ bytes : Bytes, (∃ e, Response.parse bytes = .error e) ↔ bytes.length < 2) ∧
    (∀ (bytes : Bytes) (r : Response), Response.parse bytes = .ok r → r.encode = bytes) := by
  refine ⟨fun r => SelectResponse.round_trip, Auth0Response.round_trip, fun m hencodable => ?_,
    fun counter keys m => Auth1Response.round_trip counter keys, fun bytes => Response.parse_error_iff,
    fun bytes r => Response.encode_of_parse⟩
  rw [m.encode?_eq]
  exact Auth1Plaintext.decode_encode hencodable

/-- An answer to SELECT whose capabilities have 127 bytes. -/
def capable : SelectResponse := ⟨SelectCommand.accessAid, [0x01, 0x00], [0x00, 0x00], some (List.replicate 127 0x33)⟩

/-- A message with a slot of 127 bytes. -/
def slotted : Auth1Plaintext := ⟨.replicate 64 0x11, some .generator, some (List.replicate 127 0x44)⟩

/-- Contents of 127 bytes come back, also from inside two other objects. The counter after the largest is zero, and a
status word without a meaning is kept. -/
theorem answers_round_trip_of_127_bytes :
    (do
      let response ← capable.toResponse?
      SelectResponse.ofResponse (← Response.parse response.encode)) = .ok capable ∧
    (do Auth1Plaintext.decode (← slotted.encode?)) = .ok slotted ∧
    (∃ answered,
      Auth1Response.encrypt? ⟨0xFFFFFFFF, some (.ofVolatileBlock (.replicate 160 0x22))⟩ slotted =
        .ok (⟨0, some (.ofVolatileBlock (.replicate 160 0x22))⟩, answered) ∧
      (do
        let response ← Response.parse answered.toResponse.encode
        (Auth1Response.ofResponse response).decrypt
          ⟨0xFFFFFFFF, some (.ofVolatileBlock (.replicate 160 0x22))⟩) = .ok slotted) ∧
    (∃ r, Response.parse [0x55, 0x12, 0x34] = .ok r ∧ r.encode = [0x55, 0x12, 0x34]) := by
  have hcapable : Encodable capable.toObject := encodable_of_length _ (by decide +kernel)
  have hslotted : AllEncodable slotted.toObjects := allEncodable_of_length _ (by decide +kernel)
  obtain ⟨r, hr⟩ : ∃ r, Response.parse [0x55, 0x12, 0x34] = .ok r := Response.parse_eq_ok_iff.mpr (by decide)
  exact ⟨answers_round_trip.1 capable hcapable, answers_round_trip.2.2.1 slotted hslotted,
    answers_round_trip.2.2.2.1 0xFFFFFFFF _ slotted hslotted, r, hr, answers_round_trip.2.2.2.2.2 _ r hr⟩

end TapAccess
