import TapAccess.Message.Auth1
import TapAccess.Message.ControlFlow
import TapAccess.Message.Select

/-!
# Requests

A request is one of the four commands that an endpoint answers. Reading one checks the frame, the
instruction, the class that goes with it, and then the fields of the command.
-/

namespace TapAccess

/-- A command that an endpoint answers. -/
inductive Request where
  | select (command : SelectCommand)
  | auth0 (command : Auth0Command)
  | auth1 (command : Auth1Command)
  | controlFlow (command : ControlFlowCommand)
  deriving DecidableEq

namespace Request

def instruction : Request → Instruction
  | select _ => .select
  | auth0 _ => .auth0
  | auth1 _ => .auth1
  | controlFlow _ => .controlFlow

def encode : Request → Bytes
  | select command => command.encode
  | auth0 command => command.encode
  | auth1 command => command.encode
  | controlFlow command => command.encode

/-- The request that a frame carries. -/
def ofCommand (c : Command) : Except ProtocolError Request :=
  match c.instruction with
  | .unknown byte => .error (.unknownInstruction byte)
  | .known instruction =>
    if c.cla ≠ instruction.expectedClass then .error (.invalidClass c.cla)
    else
      match instruction with
      | .select => (SelectCommand.ofCommand c).map select
      | .auth0 => (Auth0Command.ofCommand c).map auth0
      | .auth1 => (Auth1Command.ofCommand c).map auth1
      | .controlFlow => (ControlFlowCommand.ofCommand c).map controlFlow
      | other => .error (.unknownInstruction other.byte)

def decode (bytes : Bytes) : Except ProtocolError Request := do
  ofCommand (← (Command.decode bytes).mapError ProtocolError.ofFraming)

/-- Reads a request and logs what was received. -/
def receive {σ : Type} (bytes : Bytes) : Action ProtocolError σ Request := do
  let command ← (Command.receive bytes).mapError ProtocolError.ofFraming
  Action.ofExcept (ofCommand command)

end Request

end TapAccess
