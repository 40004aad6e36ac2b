import TapAccess.Apdu.Response
import TapAccess.Message.Fields
import TapAccess.Tlv.Lookup

/-!
# CONTROL_FLOW

After a fast transaction the reader tells the endpoint how it acted, in two status bytes and optional
data of its own. The answer is a status word.
-/

namespace TapAccess

/-- How the reader acted on a transaction. -/
structure ControlFlowCommand where
  s1 : UInt8
  s2 : UInt8
  domainData : Option Bytes
  deriving DecidableEq, Repr

namespace ControlFlowCommand

/-- The reader acted as asked. -/
def success : ControlFlowCommand := ⟨0x01, 0x00, none⟩

/-- The reader did not act. -/
def failure : ControlFlowCommand := ⟨0x00, 0x00, none⟩

/-- The reader asks for a step-up. -/
def stepUp : ControlFlowCommand := ⟨0x40, 0xA0, none⟩

def toObjects (c : ControlFlowCommand) : List Tlv.Object :=
  .firstParameter c.s1 :: .secondParameter c.s2 ::
    (c.domainData.map fun data => .ofValue 0x43 data).toList

/-- The command frame; no data is expected back. -/
def toCommand (c : ControlFlowCommand) : Command :=
  { cla := 0x80, instruction := .known .controlFlow, p1 := 0x00, p2 := 0x00,
    data := Tlv.Object.encodeAll c.toObjects, le := 0 }

def encode (c : ControlFlowCommand) : Bytes := c.toCommand.encode

def ofObjects (objects : List Tlv.Object) : Except ProtocolError ControlFlowCommand := do
  let s1 ← (← Tlv.Object.require objects 0x41).firstByte "S1"
  let s2 ← (← Tlv.Object.require objects 0x42).firstByte "S2"
  let domainData ← Tlv.Object.optionalValue objects 0x43
  return { s1, s2, domainData }

def ofCommand (c : Command) : Except ProtocolError ControlFlowCommand := do
  ofObjects (← Tlv.Object.parse c.data)

end ControlFlowCommand

structure ControlFlowResponse where
  status : StatusWord
  deriving DecidableEq, Repr

namespace ControlFlowResponse

def noted : ControlFlowResponse := ⟨.known .ok⟩

def toResponse (r : ControlFlowResponse) : Response := ⟨r.status, []⟩

/-- Only the status word counts. -/
def ofResponse (r : Response) : ControlFlowResponse := ⟨r.status⟩

end ControlFlowResponse

end TapAccess
