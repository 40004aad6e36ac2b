import TapAccess.Error
import TapAccess.Tlv.Decode

/-!
# Finding objects and taking their values

A message finds its fields by tag: the first object with the tag counts, whatever stands around it. The
value of a field is then taken as bytes, as a first byte, or as bytes of a fixed number.
-/

namespace TapAccess.Tlv.Object

/-- The objects that the input is made of, with a failure as an error of the protocol. -/
def parse (input : Bytes) : Except ProtocolError (List Object) :=
  (decodeAll input).mapError ProtocolError.tlv

/-- The first of the objects whose tag is the given byte. -/
def find? (objects : List Object) (tag : UInt8) : Option Object :=
  match Tag.ofByte? tag with
  | none => none
  | some tag => List.find? (fun object => object.tag = tag) objects

/-- The first of the objects whose tag is the given byte; there has to be one. -/
def require (objects : List Object) (tag : UInt8) : Except ProtocolError Object :=
  match find? objects tag with
  | some object => .ok object
  | none => .error (.missingTag tag)

/-- The value of an object that has one. -/
def value : Object → Except ProtocolError Bytes
  | primitive _ value _ => .ok value
  | constructed _ _ _ => .error .unexpectedTlvValue

/-- The first byte of the value; `field` names it in the error. -/
def firstByte (object : Object) (field : String) : Except ProtocolError UInt8 := do
  match ← object.value with
  | [] => throw (.emptyTlvValue field)
  | first :: _ => return first

/-- A value of exactly `n` bytes; `field` names it in the error. -/
def octets (object : Object) (n : Nat) (field : String) : Except ProtocolError (Octets n) := do
  let bytes ← object.value
  match Octets.ofList? n bytes with
  | some octets => return octets
  | none => throw (.invalidLength field n bytes.length)

def optionalValue (objects : List Object) (tag : UInt8) : Except ProtocolError (Option Bytes) :=
  match find? objects tag with
  | none => .ok none
  | some object => object.value.map some

end TapAccess.Tlv.Object
