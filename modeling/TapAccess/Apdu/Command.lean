import TapAccess.Action
import TapAccess.Apdu.Instruction
import TapAccess.Hex

/-!
# Command frames

A command is a header of four bytes, optional data with its length before it, and an optional limit on
the response's length after it. Lengths are written in a short form of one byte or in an extended form of
two bytes behind a zero byte; one command uses the same form for both.
-/

namespace TapAccess

structure Command where
  cla : UInt8
  instruction : InstructionCode
  p1 : UInt8
  p2 : UInt8
  data : Bytes
  /-- The longest response that is expected, zero when none is. -/
  le : Nat
  deriving DecidableEq, Repr

namespace Command

/-- The limit that stands for as long a response as the short form allows. -/
def maxShortLe : Nat := 256

/-! ### Writing -/

/-- The command needs the extended form. -/
def IsExtended (c : Command) : Prop := 255 < c.data.length ∨ maxShortLe < c.le

instance (c : Command) : Decidable c.IsExtended := inferInstanceAs (Decidable (_ ∨ _))

/-- The data with its length before it; nothing when there is none. -/
def dataField (c : Command) : Bytes :=
  if c.data = [] then []
  else if c.IsExtended then 0x00 :: (Bytes.ofNat 2 c.data.length ++ c.data)
  else Bytes.ofNat 1 c.data.length ++ c.data

/-- The limit on the response; nothing when it is zero. The extended form needs a zero byte in front
unless the data has one. -/
def leField (c : Command) : Bytes :=
  if c.le = 0 then []
  else if c.IsExtended then (if c.data = [] then [0x00] else []) ++ Bytes.ofNat 2 c.le
  else Bytes.ofNat 1 c.le

/-- The bytes of a command. Lengths are cut to the digits that their form has room for. -/
def encode (c : Command) : Bytes :=
  [c.cla, c.instruction.byte, c.p1, c.p2] ++ c.dataField ++ c.leField

/-! ### Reading -/

/-- Why bytes are no command. -/
inductive FramingError where
  | noHeader
  | truncatedExtendedLc
  | extendedLcMismatch (lc remaining : Nat)
  | lcMismatch (lc remaining : Nat)
  deriving DecidableEq, Repr

/-- The limit that one byte stands for. -/
def shortLe (b : UInt8) : Nat := if b = 0 then 256 else b.toNat

/-- The limit that two bytes stand for. -/
def extendedLe (bytes : Bytes) : Nat :=
  if Bytes.toNat bytes = 0 then 65536 else Bytes.toNat bytes

/-- What follows a zero byte and a length of two bytes. -/
def decodeExtended (lengthBytes rest : Bytes) : Except FramingError (Bytes × Nat) :=
  let lc := Bytes.toNat lengthBytes
  -- without data the two bytes are the limit itself
  if rest = [] then .ok ([], extendedLe lengthBytes)
  else if rest.length = lc then .ok (rest, 0)
  else if rest.length = lc + 2 then .ok (rest.take lc, extendedLe (rest.drop lc))
  else .error (.extendedLcMismatch lc rest.length)

/-- What follows a length of one byte. -/
def decodeShort (lengthByte : UInt8) (rest : Bytes) : Except FramingError (Bytes × Nat) :=
  let lc := lengthByte.toNat
  if rest.length = lc then .ok (rest, 0)
  else if rest.length = lc + 1 then .ok (rest.take lc, shortLe ((rest.drop lc).headD 0))
  else .error (.lcMismatch lc rest.length)

/-- The data and the limit that follow a header. -/
def decodeBody : Bytes → Except FramingError (Bytes × Nat)
  | [] => .ok ([], 0)
  | [le] => .ok ([], shortLe le)
  | first :: second :: rest =>
    if first = 0x00 then
      match rest with
      | [] => .error .truncatedExtendedLc
      | third :: rest => decodeExtended [second, third] rest
    else decodeShort first (second :: rest)

def decode : Bytes → Except FramingError Command
  | cla :: ins :: p1 :: p2 :: body => do
    let (data, le) ← decodeBody body
    return { cla, instruction := .ofByte ins, p1, p2, data, le }
  | _ => .error .noHeader

/-! ### Reading with a log -/

def FramingError.reason : FramingError → String
  | .noHeader => "command is shorter than its header"
  | .truncatedExtendedLc => "truncated extended L_c"
  | .extendedLcMismatch _ _ => "extended L_c does not match the payload"
  | .lcMismatch _ _ => "L_c does not match the payload"

def FramingError.details? : FramingError → Option String
  | .extendedLcMismatch lc remaining =>
    some s!"Extended L_c ({lc}) does not match the remaining {remaining} bytes"
  | .lcMismatch lc remaining =>
    some (s!"Expected the remainder({remaining}) after L_c to be the payload len({lc})"
      ++ " plus at most one L_e byte")
  | _ => none

/-- The line that sums up a command. -/
def summary (c : Command) : String :=
  "Processing APDU command: CLA: " ++ Hex.byte c.cla ++ ", INS: " ++ Hex.byte c.instruction.byte
    ++ ", P1: " ++ Hex.byte c.p1 ++ ", P2: " ++ Hex.byte c.p2
    ++ s!", Payload Length: {c.data.length}, Resp len: {c.le}"

/-- Reads a command and logs what was received. -/
def receive {σ : Type} (bytes : Bytes) : Action FramingError σ Command := do
  Action.debug ("APDU: " ++ Hex.encodeUpper bytes)
  match decode bytes with
  | .ok command =>
    Action.debug command.summary
    return command
  | .error e =>
    match e.details? with
    | some details => Action.error details
    | none => pure ()
    throw e

end Command

end TapAccess
