import TapAccess.Json.Read

/-!
# Transaction codes

What the reader is about to do with its lock, as one byte. Four values have names, and every byte can be
written as hexadecimal text.
-/

namespace TapAccess

/-- What the reader is about to do. -/
inductive TransactionCode where
  | unlock
  | lock
  | disarm
  | forceUserAuthentication
  | other (byte : UInt8)
  deriving DecidableEq, Repr

namespace TransactionCode

def byte : TransactionCode → UInt8
  | unlock => 0x01
  | lock => 0x02
  | disarm => 0x03
  | forceUserAuthentication => 0xEF
  | other byte => byte

def ofByte (b : UInt8) : TransactionCode :=
  if b = 0x01 then unlock
  else if b = 0x02 then lock
  else if b = 0x03 then disarm
  else if b = 0xEF then forceUserAuthentication
  else other b

def describe : TransactionCode → String
  | unlock => "Unlock"
  | lock => "Lock"
  | disarm => "Disarm"
  | forceUserAuthentication => "ForceUserAuthentication"
  | other byte => s!"Other({byte.toNat})"

/-- The named codes, as they are written by hand. -/
def named : List (String × TransactionCode) := [
  ("unlock", unlock),
  ("lock", lock),
  ("disarm", disarm),
  ("force-user-authentication", forceUserAuthentication)]

/-! ### Reading text -/

/-- Drops every `0x` in front. -/
def dropMarks : List Char → List Char
  | '0' :: 'x' :: rest => dropMarks rest
  | text => text

/-- The number that hexadecimal digits spell; there has to be one digit at least. -/
def digitsValue? (digits : List Char) : Option Nat :=
  if digits = [] then none
  else digits.foldlM (fun acc c => (Hex.digitOfChar? c).map (16 * acc + ·)) 0

/-- A byte in hexadecimal, after any number of `0x` and an optional plus sign. -/
def byteOfText? (text : List Char) : Option UInt8 :=
  let digits :=
    match dropMarks text with
    | '+' :: rest => rest
    | rest => rest
  match digitsValue? digits with
  | some value => if value < 256 then some (UInt8.ofNat value) else none
  | none => none

/-- Reads a name or a hexadecimal byte; the case of ASCII letters does not count. -/
def ofText? (text : String) : Option TransactionCode :=
  let lowered := text.toList.map Char.toLower
  match named.find? fun entry => entry.1.toList = lowered with
  | some entry => some entry.2
  | none => (byteOfText? lowered).map ofByte

/-- Reads a JSON number that is a byte. -/
def ofJson? (value : Json) : Option TransactionCode :=
  value.natural?.bind fun n => if n < 256 then some (ofByte (UInt8.ofNat n)) else none

def unknownText (text : String) : String := "unknown transaction code: " ++ text

/-- Reads a code, or says that there is none and repeats what was written. -/
def parse (text : String) : Except String TransactionCode :=
  match ofText? text with
  | some code => .ok code
  | none => .error (unknownText text)

end TransactionCode

end TapAccess
