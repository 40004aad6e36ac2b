import TapAccess.Crypto.Sha256

/-!
# Keyed hashing and key derivation

`Hmac.tag` authenticates a message under a key with SHA-256. `Hkdf.derive` turns input key material
into as many bytes as asked for: it extracts one fixed-size key and expands it block by block, at most
255 blocks of 32 bytes.
-/

namespace TapAccess

namespace Hmac

/-- A key as one hash block: hashed when it is longer, then filled up with zeros. -/
def blockKey (key : Bytes) : Bytes :=
  let short := if key.length > 64 then (Sha256.digest key).toList else key
  short ++ List.replicate (64 - short.length) 0

/-- The authentication tag of `message` under `key`. -/
def tag (key message : Bytes) : Octets 32 :=
  let block := blockKey key
  let inner := Sha256.digest (block.map (· ^^^ 0x36) ++ message)
  Sha256.digest (block.map (· ^^^ 0x5C) ++ inner.toList)

end Hmac

namespace Hkdf

/-- The longest output, 255 blocks. -/
def maxLength : Nat := 255 * 32

/-- `count` output blocks that follow `previous`, the next one having the number `index`. -/
def expandBlocks (key info : Bytes) : (count : Nat) → (index : Nat) → (previous : Bytes) → Bytes
  | 0, _, _ => []
  | count + 1, index, previous =>
    let block := (Hmac.tag key (previous ++ info ++ [UInt8.ofNat index])).toList
    block ++ expandBlocks key info count (index + 1) block

@[simp] theorem length_expandBlocks (key info : Bytes) (count index : Nat) (previous : Bytes) :
    (expandBlocks key info count index previous).length = 32 * count := by
  induction count generalizing index previous with
  | zero => rfl
  | succ count ih => simp [expandBlocks, ih]; omega

/-- The first `n` bytes of the expansion of `key`. -/
def expand (key info : Bytes) (n : Nat) : Octets n :=
  ⟨(expandBlocks key info ((n + 31) / 32) 1 []).take n, by simp; omega⟩

/-- `n` bytes derived from the key material `ikm`. -/
def derive (ikm salt info : Bytes) (n : Nat) : Octets n :=
  expand (Hmac.tag salt ikm).toList info n

/-- `n` bytes derived from the key material `ikm`, or nothing when more than `maxLength` are asked for. -/
def derive? (ikm salt info : Bytes) (n : Nat) : Option (Octets n) :=
  if n ≤ maxLength then some (derive ikm salt info n) else none

end Hkdf

end TapAccess
