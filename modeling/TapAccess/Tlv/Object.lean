import TapAccess.Tlv.Tag

/-!
# Tagged objects

An object is a tag with a value, or a tag with further objects. Its encoding is the tag, the length of
the contents and the contents. The size that counts for an enclosing object is computed as if contents of
127 bytes had a length field of one byte, although two are written.
-/

namespace TapAccess.Tlv

/-- A tagged object; its tag says which of the two kinds it is. -/
inductive Object where
  | primitive (tag : Tag) (value : Bytes) (isPrimitive : tag.isConstructed = false)
  | constructed (tag : Tag) (children : List Object) (isConstructed : tag.isConstructed = true)

namespace Object

def tag : Object → Tag
  | primitive tag _ _ => tag
  | constructed tag _ _ => tag

def children : Object → List Object
  | primitive _ _ _ => []
  | constructed _ children _ => children

mutual

/-- Two objects are the same. -/
def same : Object → Object → Bool
  | primitive t v _, primitive t' v' _ => t = t' && v = v'
  | constructed t cs _, constructed t' cs' _ => t = t' && sameAll cs cs'
  | _, _ => false

def sameAll : List Object → List Object → Bool
  | [], [] => true
  | a :: as, b :: bs => same a b && sameAll as bs
  | _, _ => false

end

/-! ### Construction -/

/-- The object with a tag of one byte and a value. -/
def primitive? (tag : UInt8) (value : Bytes) : Except TlvError Object :=
  match Tag.ofByte? tag with
  | none => .error .invalidInput
  | some tag =>
    if h : tag.isConstructed = false then .ok (.primitive tag value h) else .error .inconsistent

/-- The object with a tag of one byte and objects inside. -/
def constructed? (tag : UInt8) (children : List Object) : Except TlvError Object :=
  match Tag.ofByte? tag with
  | none => .error .invalidInput
  | some tag =>
    if h : tag.isConstructed = true then .ok (.constructed tag children h) else .error .inconsistent

/-- The object with a tag that is known to be one byte for a value. -/
def ofValue (tag : UInt8) (value : Bytes) (isTag : IsTag [tag] = true := by decide)
    (isPrimitive : (Tag.ofByte tag isTag).isConstructed = false := by decide) : Object :=
  .primitive (.ofByte tag isTag) value isPrimitive

/-- The object with a tag that is known to be one byte for further objects. -/
def ofChildren (tag : UInt8) (children : List Object) (isTag : IsTag [tag] = true := by decide)
    (isConstructed : (Tag.ofByte tag isTag).isConstructed = true := by decide) : Object :=
  .constructed (.ofByte tag isTag) children isConstructed

/-! ### Sizes -/

/-- The bytes that a length field counts for, given the length of the contents. -/
def lengthFieldSize (length : Nat) : Nat :=
  if length < 0x80 then 1
  else if length < 0x100 then 2
  else if length < 0x10000 then 3
  else if length < 0x1000000 then 4
  else 5

/-- The size of an object with a tag of `tagSize` bytes around contents of `length` bytes. -/
def enclosingSize (tagSize length : Nat) : Nat := tagSize + lengthFieldSize length + length

mutual

/-- The size that an object counts for. -/
def size : Object → Nat
  | primitive tag value _ => enclosingSize tag.bytes.length value.length
  | constructed tag children _ => enclosingSize tag.bytes.length (totalSize children)

def totalSize : List Object → Nat
  | [] => 0
  | object :: objects => size object + totalSize objects

end

/-! ### Writing -/

/-- The number of base 256 digits of a number, at least one. -/
def digitCount (value : Nat) : Nat := value.log2 / 8 + 1

/-- A length field: one byte for lengths below 127, else the number of digits and the digits. -/
def lengthField (length : Nat) : Bytes :=
  if length < 0x7F then [UInt8.ofNat length]
  else UInt8.ofNat (0x80 + digitCount length) :: Bytes.ofNat (digitCount length) length

mutual

/-- The bytes of an object. -/
def encode : Object → Bytes
  | primitive tag value _ => tag.bytes ++ lengthField value.length ++ value
  | constructed tag children _ =>
    tag.bytes ++ lengthField (totalSize children) ++ encodeAll children

def encodeAll : List Object → Bytes
  | [] => []
  | object :: objects => encode object ++ encodeAll objects

end

end Object

end TapAccess.Tlv
