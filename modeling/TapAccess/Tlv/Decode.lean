import TapAccess.Tlv.Object

/-!
# Reading tagged objects

`Object.decodeAll` reads objects until the input ends. The contents of a constructed object are not cut
out first: objects are read from all that is left of the input until their sizes add up to the length
that was announced, and overshooting it is an error.
-/

namespace TapAccess.Tlv

/-- Reads a length field: a byte below 128 is the length, another one says how many digits follow. -/
def readLength : Bytes → Except TlvError (Nat × Bytes)
  | [] => .error .truncatedInput
  | first :: rest =>
    if first < 0x80 then .ok (first.toNat, rest)
    else
      let count := first.toNat - 0x80
      if 4 < count then .error .invalidLength
      else
        let digits := rest.take count
        if digits.length < count then .error .truncatedInput
        else .ok (Bytes.toNat digits, rest.drop count)

namespace Object

mutual

/-- Reads one object. -/
def read : (depth : Nat) → Bytes → Except TlvError (Object × Bytes)
  | 0, _ => .error .truncatedInput
  | depth + 1, input =>
    match Tag.read input with
    | .error e => .error e
    | .ok (tag, input) =>
      match readLength input with
      | .error e => .error e
      | .ok (length, input) =>
        if h : tag.isConstructed = true then
          -- the length bounds the children's sizes; they are read from all that is left
          match readChildren depth length [] input with
          | .error e => .error e
          | .ok (children, rest) => .ok (.constructed tag children h, rest)
        else
          let value := input.take length
          if value.length < length then .error .truncatedInput
          else .ok (.primitive tag value (by simpa using h), input.drop length)

/-- Reads objects until their sizes add up to `length`, behind those in `done`, last one first. -/
def readChildren : (depth : Nat) → (length : Nat) → (done : List Object) → Bytes →
    Except TlvError (List Object × Bytes)
  | 0, _, _, _ => .error .truncatedInput
  | depth + 1, length, done, input =>
    if length = 0 then .ok (done.reverse, input)
    else
      match read depth input with
      | .error e => .error e
      | .ok (child, rest) =>
        if length < child.size then .error .inconsistent
        else readChildren depth (length - child.size) (child :: done) rest

end

/-- Reads objects until the input ends, behind those in `done`, last one first. -/
def readAll : (depth : Nat) → (done : List Object) → Bytes → Except TlvError (List Object)
  | 0, _, _ => .error .truncatedInput
  | depth + 1, done, input =>
    if input = [] then .ok done.reverse
    else
      match read depth input with
      | .error e => .error e
      | .ok (object, rest) => readAll depth (object :: done) rest

-- every object has two bytes or more, so this depth is never used up
def decodeAll (input : Bytes) : Except TlvError (List Object) := readAll (2 * input.length + 2) [] input

end Object

end TapAccess.Tlv
