import TapAccess.Bytes

/-!
# Instructions

The second byte of a command names what is asked for. Eight instructions are known; the others are
carried as they are.
-/

namespace TapAccess

inductive Instruction where
  | select
  | auth0
  | auth1
  | controlFlow
  | envelope
  | exchange
  | getResponse
  | loadCert
  deriving DecidableEq, Repr

namespace Instruction

def byte : Instruction → UInt8
  | .select => 0xA4
  | .auth0 => 0x80
  | .auth1 => 0x81
  | .controlFlow => 0x3C
  | .envelope => 0xC3
  | .exchange => 0xC9
  | .getResponse => 0xC0
  | .loadCert => 0xD1

def name : Instruction → String
  | .select => "Select"
  | .auth0 => "Auth0"
  | .auth1 => "Auth1"
  | .controlFlow => "ControlFlow"
  | .envelope => "Envelope"
  | .exchange => "Exchange"
  | .getResponse => "GetResponse"
  | .loadCert => "LoadCert"

def all : List Instruction :=
  [.select, .auth0, .auth1, .controlFlow, .envelope, .exchange, .getResponse, .loadCert]

def ofByte? (b : UInt8) : Option Instruction := all.find? (·.byte = b)

/-- The class byte that goes with an instruction: selecting an applet is common to all cards, the rest is
proprietary. -/
def expectedClass : Instruction → UInt8
  | .select => 0x00
  | _ => 0x80

end Instruction

/-- An instruction byte, with its meaning when it has one. -/
inductive InstructionCode where
  | known (instruction : Instruction)
  | unknown (byte : UInt8)
  deriving DecidableEq, Repr

namespace InstructionCode

def byte : InstructionCode → UInt8
  | .known instruction => instruction.byte
  | .unknown byte => byte

def ofByte (b : UInt8) : InstructionCode :=
  match Instruction.ofByte? b with
  | some instruction => .known instruction
  | none => .unknown b

end InstructionCode

end TapAccess
