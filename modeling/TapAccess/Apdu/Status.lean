import TapAccess.Bytes

/-!
# Status words

A response ends in a status word of two bytes. Twelve of them have a meaning here; the others are carried
as they are.
-/

namespace TapAccess

inductive ResponseCode where
  | ok
  | genericError
  | memoryFailure
  | wrongLength
  | logicalChannelNotSupported
  | securityStatusNotSatisfied
  | conditionsNotSatisfied
  | fileOrApplicationNotFound
  | incorrectP1OrP2
  | instructionNotSupported
  | classNotSupported
  | unspecified
  deriving DecidableEq, Repr

namespace ResponseCode

def value : ResponseCode → UInt16
  | .ok => 0x9000
  | .genericError => 0x6400
  | .memoryFailure => 0x6581
  | .wrongLength => 0x6700
  | .logicalChannelNotSupported => 0x6881
  | .securityStatusNotSatisfied => 0x6982
  | .conditionsNotSatisfied => 0x6985
  | .fileOrApplicationNotFound => 0x6A82
  | .incorrectP1OrP2 => 0x6B00
  | .instructionNotSupported => 0x6D00
  | .classNotSupported => 0x6E00
  | .unspecified => 0x6F00

def all : List ResponseCode := [
  .ok, .genericError, .memoryFailure, .wrongLength, .logicalChannelNotSupported,
  .securityStatusNotSatisfied, .conditionsNotSatisfied, .fileOrApplicationNotFound, .incorrectP1OrP2,
  .instructionNotSupported, .classNotSupported, .unspecified]

def ofValue? (w : UInt16) : Option ResponseCode := all.find? (·.value = w)

def encode (c : ResponseCode) : Bytes := Bytes.ofNat 2 c.value.toNat

end ResponseCode

/-- A status word, with its meaning when it has one. -/
inductive StatusWord where
  | known (code : ResponseCode)
  | unknown (value : UInt16)
  deriving DecidableEq, Repr

namespace StatusWord

def value : StatusWord → UInt16
  | .known code => code.value
  | .unknown value => value

def ofValue (w : UInt16) : StatusWord :=
  match ResponseCode.ofValue? w with
  | some code => .known code
  | none => .unknown w

def sw1 (s : StatusWord) : UInt8 := UInt8.ofNat (s.value.toNat / 256)

def sw2 (s : StatusWord) : UInt8 := UInt8.ofNat s.value.toNat

def encode (s : StatusWord) : Bytes := Bytes.ofNat 2 s.value.toNat

end StatusWord

end TapAccess
