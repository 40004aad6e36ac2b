import TapAccess.Message.Auth0

/-!
# AUTH1

The reader signs the handshake. The endpoint answers, over the secure channel, with a signature of its
own and the public key to verify it with.
-/

namespace TapAccess

/-- The reader's signature of a handshake. -/
structure Auth1Command where
  endpointKeyRequested : Bool
  readerSignature : Signature
  /-- A certificate that is carried and not looked at. -/
  certificate : Option Bytes
  deriving DecidableEq

namespace Auth1Command

/-- The usual command with a signature. -/
def ofSignature (readerSignature : Signature) : Auth1Command := ⟨true, readerSignature, none⟩

def toObjects (c : Auth1Command) : List Tlv.Object :=
  .firstParameter (if c.endpointKeyRequested then 0x01 else 0x00) ::
    .ofValue 0x9E c.readerSignature.toList ::
      (c.certificate.map fun certificate => .ofValue 0x90 certificate).toList

def toCommand (c : Auth1Command) : Command :=
  { cla := 0x80, instruction := .known .auth1, p1 := 0x00, p2 := 0x00,
    data := Tlv.Object.encodeAll c.toObjects, le := Command.maxShortLe }

def encode (c : Auth1Command) : Bytes := c.toCommand.encode

def ofObjects (objects : List Tlv.Object) : Except ProtocolError Auth1Command := do
  let parameter ← (← Tlv.Object.require objects 0x41).firstByte "command parameters"
  let readerSignature ← (← Tlv.Object.require objects 0x9E).octets 64 "reader signature"
  let certificate ← Tlv.Object.optionalValue objects 0x90
  return { endpointKeyRequested := parameter &&& 0x01 ≠ 0, readerSignature, certificate }

def ofCommand (c : Command) : Except ProtocolError Auth1Command := do
  ofObjects (← Tlv.Object.parse c.data)

/-- The fields by name; of the certificate only the length. -/
def describe (c : Auth1Command) : String :=
  "Auth1Command \x7b endpoint_public_key_requested: " ++ toString c.endpointKeyRequested
    ++ ", reader_signature: " ++ c.readerSignature.shown ++ ", certificate: "
    ++ (match c.certificate with
      | some certificate => "Some(" ++ toString certificate.length ++ ")"
      | none => "None")
    ++ " \x7d"

end Auth1Command

/-- What the endpoint says over the secure channel. -/
structure Auth1Plaintext where
  endpointSignature : Signature
  endpointKey : Option PublicKey
  keySlot : Option Bytes
  deriving DecidableEq

namespace Auth1Plaintext

/-- The objects of the message; the last one is an empty bitmap. -/
def toObjects (m : Auth1Plaintext) : List Tlv.Object :=
  (m.endpointKey.map fun key => .ofValue 0x5A key.encode.toList).toList
    ++ (m.keySlot.map fun slot => .ofValue 0x4E slot).toList
    ++ [.ofValue 0x9E m.endpointSignature.toList, .ofValue 0x5E [0x00]]

def encode (m : Auth1Plaintext) : Bytes := Tlv.Object.encodeAll m.toObjects

def ofObjects (objects : List Tlv.Object) : Except ProtocolError Auth1Plaintext := do
  let endpointSignature ← (← Tlv.Object.require objects 0x9E).octets 64 "endpoint signature"
  let endpointKey ← (← Tlv.Object.optionalValue objects 0x5A).mapM PublicKey.parse
  let keySlot ← Tlv.Object.optionalValue objects 0x4E
  return { endpointSignature, endpointKey, keySlot }

def decode (bytes : Bytes) : Except ProtocolError Auth1Plaintext := do
  ofObjects (← Tlv.Object.parse bytes)

end Auth1Plaintext

/-- The endpoint's answer, still encrypted. -/
structure Auth1Response where
  status : StatusWord
  ciphertext : Bytes
  deriving DecidableEq, Repr

namespace Auth1Response

/-- Takes any response; whether it is complete is asked later. -/
def ofResponse (r : Response) : Auth1Response := ⟨r.status, r.payload⟩

def toResponse (r : Auth1Response) : Response := ⟨r.status, r.ciphertext⟩

/-- The first byte of the status word says that nothing more follows. -/
def IsComplete (r : Auth1Response) : Prop := r.status.sw1 = 0x90

instance (r : Auth1Response) : Decidable r.IsComplete := inferInstanceAs (Decidable (_ = _))

/-- Encrypts a message, and advances the channel. -/
def encrypt (channel : Channel) (message : Auth1Plaintext) :
    Except ProtocolError (Channel × Auth1Response) := do
  let (channel, ciphertext) ← channel.encrypt message.encode
  return (channel, ⟨.known .ok, ciphertext⟩)

def decrypt (r : Auth1Response) (channel : Channel) : Except ProtocolError Auth1Plaintext := do
  let (_, bytes) ← channel.decrypt r.ciphertext
  Auth1Plaintext.decode bytes

end Auth1Response

end TapAccess
