import TapAccess.Apdu.Response
import TapAccess.Tlv.Lookup
import TapAccess.Versions

/-!
# SELECT

The reader asks for the access applet by name, and the endpoint answers with the versions that it
supports, two objects deep.
-/

namespace TapAccess

/-- Selects the applet with the given name. -/
structure SelectCommand where
  aid : Bytes
  deriving DecidableEq, Repr

namespace SelectCommand

def accessAid : Bytes := [0xF0, 0x00, 0x6B, 0x73, 0x69, 0x00, 0x00, 0x02]

def access : SelectCommand := ⟨accessAid⟩

def toCommand (c : SelectCommand) : Command :=
  { cla := 0x00, instruction := .known .select, p1 := 0x04, p2 := 0x00, data := c.aid,
    le := Command.maxShortLe }

def encode (c : SelectCommand) : Bytes := c.toCommand.encode

/-- Takes the name out of a frame that selects by name. -/
def ofCommand (c : Command) : Except ProtocolError SelectCommand :=
  if c.p1 = 0x04 ∧ c.p2 = 0x00 then .ok ⟨c.data⟩ else .error (.incorrectParameters c.p1 c.p2)

end SelectCommand

/-- What the endpoint tells about itself. -/
structure SelectResponse where
  selectedAid : Bytes
  /-- The versions as consecutive numbers of two bytes, the preferred one first. -/
  supportedVersions : Bytes
  capabilityType : Bytes
  capabilities : Option Bytes
  deriving DecidableEq, Repr

namespace SelectResponse

/-- The answer of an endpoint that supports the given versions. -/
def ofVersions (versions : Versions) : SelectResponse where
  selectedAid := SelectCommand.accessAid
  supportedVersions := versions.encode
  capabilityType := [0x00, 0x00]
  capabilities := none

def toObject (r : SelectResponse) : Tlv.Object :=
  .ofChildren 0x6F [
    .ofValue 0x84 r.selectedAid,
    .ofChildren 0xA5 ([
      .ofValue 0x80 r.capabilityType,
      .ofValue 0x81 r.supportedVersions]
      ++ (r.capabilities.map fun capabilities => .ofValue 0x82 capabilities).toList)]

def toResponse (r : SelectResponse) : Response := .ok r.toObject.encode

def ofResponse (r : Response) : Except ProtocolError SelectResponse := do
  let objects ← Tlv.Object.parse r.payload
  let fci ← Tlv.Object.require objects 0x6F
  let details ← Tlv.Object.require fci.children 0xA5
  let selectedAid ← (← Tlv.Object.require fci.children 0x84).value
  let supportedVersions ← (← Tlv.Object.require details.children 0x81).value
  let capabilityType ← (← Tlv.Object.require details.children 0x80).value
  let capabilities ← Tlv.Object.optionalValue details.children 0x82
  return { selectedAid, supportedVersions, capabilityType, capabilities }

end SelectResponse

end TapAccess
