import TapAccess.Bytes

/-!
# Tags of tagged objects

A tag has one to three bytes. The low five bits of the first byte are all set when more bytes follow, and
every further byte but the last has its highest bit set. A bit of the first byte says whether the object
holds a value or further objects.
-/

namespace TapAccess.Tlv

/-- Why bytes are no tagged objects. -/
inductive TlvError where
  | invalidInput
  | reservedTag
  | notANumber
  | truncatedInput
  | inconsistent
  | invalidLength
  deriving DecidableEq, Repr

def TlvError.message : TlvError → String
  | .invalidInput => "Invalid tag encountered"
  | .reservedTag => "Tag is reserved for future usage"
  | .notANumber => "Error parsing input as int"
  | .truncatedInput => "Error input too short"
  | .inconsistent => "Inconsistant (tag, value) pair"
  | .invalidLength => "Read invalid length value"

/-- More bytes of the tag follow this first byte. -/
def isContinued (first : UInt8) : Bool := first &&& 0x1F = 0x1F

/-- The bytes are those of a tag. -/
def IsTag : Bytes → Bool
  | [a] => a ≠ 0 && !isContinued a
  | [a, b] => isContinued a && b < 0x80
  | [a, b, c] => isContinued a && 0x80 ≤ b && c < 0x80
  | _ => false

structure Tag where
  bytes : Bytes
  isTag : IsTag bytes = true
  deriving DecidableEq

namespace Tag

/-- The tag of one byte, when the byte is one. -/
def ofByte? (b : UInt8) : Option Tag := if h : IsTag [b] = true then some ⟨[b], h⟩ else none

/-- The tag of one byte that is known to be one. -/
def ofByte (b : UInt8) (h : IsTag [b] = true := by decide) : Tag := ⟨[b], h⟩

/-- The object holds further objects. -/
def isConstructed (t : Tag) : Bool := t.bytes.headD 0 &&& 0x20 ≠ 0

/-- Splits off the bytes that follow the first byte of a long tag. -/
def splitContinuation (input : Bytes) : Option (Bytes × Bytes) :=
  let high := input.takeWhile (0x80 ≤ ·)
  match input.drop high.length with
  | [] => none
  | last :: rest => some (high ++ [last], rest)

def read : Bytes → Except TlvError (Tag × Bytes)
  | [] => .error .truncatedInput
  | first :: rest =>
    if isContinued first then
      match splitContinuation rest with
      | none => .error .truncatedInput
      | some (more, rest) =>
        if h : IsTag (first :: more) = true then .ok (⟨first :: more, h⟩, rest)
        else .error .reservedTag
    else
      if h : IsTag [first] = true then .ok (⟨[first], h⟩, rest) else .error .invalidInput

end Tag

end TapAccess.Tlv
