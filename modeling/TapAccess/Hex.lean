import TapAccess.Bytes

/-!
# Hexadecimal text

Bytes are printed two digits each. Reading takes digits of either case; it refuses an odd number of
digits before it looks at any of them, and names the first byte that is no digit.
-/

namespace TapAccess.Hex

def digit (n : Nat) : Char := Nat.digitChar n

def encodeChars (bytes : Bytes) : List Char :=
  bytes.flatMap fun b => [digit (b.toNat / 16), digit (b.toNat % 16)]

def encode (bytes : Bytes) : String := String.ofList (encodeChars bytes)

def encodeUpper (bytes : Bytes) : String := String.ofList ((encodeChars bytes).map Char.toUpper)

/-- A byte as `0x` and two upper case digits. -/
def byte (b : UInt8) : String := "0x" ++ encodeUpper [b]

def word16 (w : UInt16) : String := encodeUpper (Bytes.ofNat 2 w.toNat)

/-- A 16-bit number as `0x` and four upper case digits. -/
def prefixed16 (w : UInt16) : String := "0x" ++ word16 w

/-- The value of the digit whose character code is `b`. -/
def digitValue? (b : UInt8) : Option Nat :=
  if 0x30 ≤ b ∧ b ≤ 0x39 then some (b.toNat - 0x30)
  else if 0x41 ≤ b ∧ b ≤ 0x46 then some (b.toNat - 0x41 + 10)
  else if 0x61 ≤ b ∧ b ≤ 0x66 then some (b.toNat - 0x61 + 10)
  else none

def digitOfChar? (c : Char) : Option Nat :=
  if c.toNat < 0x80 then digitValue? (UInt8.ofNat c.toNat) else none

/-- Why a text is not hexadecimal. -/
inductive DecodeError where
  | oddLength
  | badDigit (byte : UInt8) (position : Nat)
  deriving DecidableEq, Repr

/-- A character in single quotes, with the control characters and quotes escaped. -/
def quoteByte (b : UInt8) : String :=
  let body :=
    if b = 0x00 then "\\0"
    else if b = 0x09 then "\\t"
    else if b = 0x0A then "\\n"
    else if b = 0x0D then "\\r"
    else if b = 0x27 then "\\'"
    else if b = 0x5C then "\\\\"
    else if b < 0x20 ∨ (0x7F ≤ b ∧ b ≤ 0xA0) ∨ b = 0xAD then
      "\\u\x7b" ++ String.ofList (Nat.toDigits 16 b.toNat) ++ "\x7d"
    else String.singleton (Char.ofNat b.toNat)
  "'" ++ body ++ "'"

def DecodeError.message : DecodeError → String
  | .oddLength => "Odd number of digits"
  | .badDigit b position => "Invalid character " ++ quoteByte b ++ " at position " ++ toString position

/-- Reads digit codes in pairs, behind the bytes in `done`, last one first. -/
def decodeDigits (done : Bytes) : Bytes → Except DecodeError Bytes
  | [] => .ok done.reverse
  | [_] => .error .oddLength
  | high :: low :: rest =>
    match digitValue? high, digitValue? low with
    | none, _ => .error (.badDigit high (2 * done.length))
    | some _, none => .error (.badDigit low (2 * done.length + 1))
    | some h, some l => decodeDigits (UInt8.ofNat (16 * h + l) :: done) rest

/-- The bytes that a hexadecimal text spells. -/
def decode (text : String) : Except DecodeError Bytes :=
  let codes := Bytes.ofText text
  if codes.length % 2 = 1 then .error .oddLength else decodeDigits [] codes

end TapAccess.Hex
