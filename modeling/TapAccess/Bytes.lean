/-!
# Byte strings

Everything that travels or is hashed is a list of bytes. `Octets n` is a byte string of exactly `n`
bytes, so that keys, identifiers and signatures need no length checks once they are read. Numbers are
written big-endian.
-/

namespace TapAccess

abbrev Bytes := List UInt8

namespace Bytes

/-- The number whose base 256 digits, most significant first, are `bytes`. -/
def toNat (bytes : Bytes) : Nat := bytes.foldl (fun acc b => acc * 256 + b.toNat) 0

/-- The last `width` base 256 digits of `value`, most significant first. -/
def ofNat : (width : Nat) → (value : Nat) → Bytes
  | 0, _ => []
  | width + 1, value => UInt8.ofNat (value >>> (8 * width)) :: ofNat width value

@[simp] theorem length_ofNat (width value : Nat) : (ofNat width value).length = width := by
  induction width with
  | zero => rfl
  | succ width ih => simp [ofNat, ih]

/-- Two byte strings of one length combined bit by bit; the longer one is cut. -/
def xor (a b : Bytes) : Bytes := List.zipWith (· ^^^ ·) a b

/-- The first `count` pieces of `size` bytes. -/
def pieces (size : Nat) : (count : Nat) → Bytes → List Bytes
  | 0, _ => []
  | count + 1, bytes => bytes.take size :: pieces size count (bytes.drop size)

/-- Consecutive pieces of `size` bytes; the last one may be shorter. -/
def chunks (size : Nat) (bytes : Bytes) : List Bytes :=
  pieces size ((bytes.length + size - 1) / size) bytes

/-- The UTF-8 encoding of a text. -/
def ofText (text : String) : Bytes := text.toUTF8.toList

end Bytes

/-- A byte string of exactly `n` bytes. -/
structure Octets (n : Nat) where
  toList : Bytes
  length_eq : toList.length = n
  deriving DecidableEq

namespace Octets

variable {m n : Nat}

@[ext] theorem ext {a b : Octets n} (h : a.toList = b.toList) : a = b := by
  cases a; cases b; cases h; rfl

@[simp] theorem length_toList (a : Octets n) : a.toList.length = n := a.length_eq

/-- `bytes` as a string of `n` bytes, when it has that length. -/
def ofList? (n : Nat) (bytes : Bytes) : Option (Octets n) :=
  if h : bytes.length = n then some ⟨bytes, h⟩ else none

/-- The `n` bytes `f 0`, `f 1`, … -/
def ofFn (n : Nat) (f : Nat → UInt8) : Octets n := ⟨(List.range n).map f, by simp⟩

/-- `value` in `n` bytes; higher digits are dropped. -/
def ofNat (n value : Nat) : Octets n := ⟨Bytes.ofNat n value, by simp⟩

def toNat (a : Octets n) : Nat := a.toList.toNat

def replicate (n : Nat) (b : UInt8) : Octets n := ⟨List.replicate n b, by simp⟩

def append (a : Octets m) (b : Octets n) : Octets (m + n) := ⟨a.toList ++ b.toList, by simp⟩

/-- The `size` bytes that follow the first `start`. -/
def slice (a : Octets n) (start size : Nat) (h : start + size ≤ n := by omega) : Octets size :=
  ⟨(a.toList.drop start).take size, by simp; omega⟩

end Octets

end TapAccess
