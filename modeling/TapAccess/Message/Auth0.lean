import TapAccess.Apdu.Response
import TapAccess.Crypto.Reported
import TapAccess.KeySchedule
import TapAccess.Tlv.Lookup
import TapAccess.TransactionCode

/-!
# AUTH0

The first message of a handshake carries the reader's names and its ephemeral key. The endpoint answers
with an ephemeral key of its own, and with a cryptogram when a fast transaction was asked for.
-/

namespace TapAccess

/-- Opens a handshake. -/
structure Auth0Command where
  fast : Bool
  transactionCode : TransactionCode
  version : Version
  readerEphemeral : PublicKey
  transactionIdentifier : Identifier
  readerIdentifier : ReaderIdentifier
  deriving DecidableEq

namespace Auth0Command

/-- The parameter byte: its lowest bit asks for a fast transaction. -/
def parameter (c : Auth0Command) : UInt8 := if c.fast then 0x01 else 0x00

/-- The two bytes that the keys are bound to. -/
def flag (c : Auth0Command) : Flag := ⟨[c.parameter, c.transactionCode.byte], rfl⟩

def toObjects (c : Auth0Command) : List Tlv.Object := [
  .firstParameter c.parameter,
  .secondParameter c.transactionCode.byte,
  .ofValue 0x5C c.version.encode.toList,
  .readerEphemeral c.readerEphemeral.encode.toList,
  .transactionIdentifier c.transactionIdentifier,
  .readerIdentifier c.readerIdentifier]

def toCommand (c : Auth0Command) : Command :=
  { cla := 0x80, instruction := .known .auth0, p1 := 0x00, p2 := 0x00,
    data := Tlv.Object.encodeAll c.toObjects, le := Command.maxShortLe }

def encode (c : Auth0Command) : Bytes := c.toCommand.encode

def ofObjects (objects : List Tlv.Object) : Except ProtocolError Auth0Command := do
  let parameter ← (← Tlv.Object.require objects 0x41).firstByte "command parameters"
  let code ← (← Tlv.Object.require objects 0x42).firstByte "transaction code"
  let version ← (← Tlv.Object.require objects 0x5C).octets 2 "protocol version"
  let readerEphemeral ← PublicKey.parse (← (← Tlv.Object.require objects 0x87).value)
  let transactionIdentifier ← (← Tlv.Object.require objects 0x4C).octets 16 "transaction identifier"
  let readerIdentifier ← ReaderIdentifier.parse (← (← Tlv.Object.require objects 0x4D).value)
  return {
    fast := parameter &&& 0x01 ≠ 0
    transactionCode := .ofByte code
    version := UInt16.ofNat version.toNat
    readerEphemeral, transactionIdentifier, readerIdentifier }

def ofCommand (c : Command) : Except ProtocolError Auth0Command := do
  ofObjects (← Tlv.Object.parse c.data)

end Auth0Command

/-- The endpoint's part of the first exchange. -/
structure Auth0Response where
  endpointEphemeral : PublicKey
  cryptogram : Option Cryptogram
  deriving DecidableEq

namespace Auth0Response

def toObjects (r : Auth0Response) : List Tlv.Object :=
  .endpointEphemeral r.endpointEphemeral.encode.toList ::
    (r.cryptogram.map fun cryptogram => .ofValue 0x9D cryptogram.toList).toList

def toResponse (r : Auth0Response) : Response := .ok (Tlv.Object.encodeAll r.toObjects)

def ofObjects (objects : List Tlv.Object) : Except ProtocolError Auth0Response := do
  let endpointEphemeral ← PublicKey.parse (← (← Tlv.Object.require objects 0x86).value)
  let cryptogram ← (← Tlv.Object.optionalValue objects 0x9D).mapM (Octets.parse 16 "cryptogram")
  return { endpointEphemeral, cryptogram }

def ofResponse (r : Response) : Except ProtocolError Auth0Response := do
  ofObjects (← Tlv.Object.parse r.payload)

end Auth0Response

end TapAccess
