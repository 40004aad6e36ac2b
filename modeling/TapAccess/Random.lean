import TapAccess.Crypto.Keys

/-!
# Random bytes

Randomness is an endless stream of bytes that is read from the front. Key pairs and choices are drawn
from it by rejection: a draw out of range is dropped and the next one is taken, so that every value in
range is equally likely.
-/

namespace TapAccess

/-- An endless stream of bytes and how many of them have been drawn. -/
structure RandomSource where
  byte : Nat → UInt8
  drawn : Nat

/-- A draw is out of range at most every other time; this many in a row do not occur. -/
def RandomSource.maxDraws : Nat := UInt64.size

namespace RandomSource

def octets (n : Nat) (r : RandomSource) : Octets n × RandomSource :=
  (.ofFn n fun i => r.byte (r.drawn + i), { r with drawn := r.drawn + n })

/-! ### Key pairs -/

/-- The first private key in range among at most `draws` draws of 32 bytes, read big-endian. -/
def privateKeyWithin : (draws : Nat) → RandomSource → Option PrivateKey × RandomSource
  | 0, r => (none, r)
  | draws + 1, r =>
    let (bytes, r) := r.octets 32
    match PrivateKey.ofNat? bytes.toNat with
    | some k => (some k, r)
    | none => privateKeyWithin draws r

def keyPair (r : RandomSource) : KeyPair × RandomSource :=
  let (k, r) := r.privateKeyWithin maxDraws
  (.ofPrivateKey (k.getD ⟨1, by decide, by decide +kernel⟩), r)

/-! ### Choices -/

/-- The zeros in front of `k` when it is written with 32 binary digits. -/
def leadingZeros (k : Nat) : Nat := 31 - k.log2

/-- The index below `k` that a 32-bit word stands for. -/
def indexOfWord? (k word : Nat) : Option Nat :=
  let product := word * k
  -- a lower half outside the zone would make some indices likelier than others
  if product % UInt32.size ≤ (k <<< leadingZeros k - 1) % UInt32.size then some (product / UInt32.size)
  else none

/-- A number below 2^32 from the next four bytes, the first of them the least significant. -/
def word (r : RandomSource) : Nat × RandomSource :=
  let (bytes, r) := r.octets 4
  (Bytes.toNat bytes.toList.reverse, r)

/-- The index of the first accepted word among at most `draws` words. -/
def indexWithin (k : Nat) : (draws : Nat) → RandomSource → Option Nat × RandomSource
  | 0, r => (none, r)
  | draws + 1, r =>
    let (w, r) := r.word
    match indexOfWord? k w with
    | some i => (some i, r)
    | none => indexWithin k draws r

/-- One of the given values; only a choice between two or more draws. -/
def choose? {α : Type} (values : List α) (r : RandomSource) : Option α × RandomSource :=
  match values with
  | [] => (none, r)
  | [value] => (some value, r)
  | several =>
    let (i, r) := r.indexWithin several.length maxDraws
    (i.bind (several[·]?), r)

end RandomSource

end TapAccess
