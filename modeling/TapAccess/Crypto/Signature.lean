import TapAccess.Crypto.Hmac
import TapAccess.Crypto.Keys

/-!
# Signatures

A signature is two numbers below the curve's order, 32 bytes each. Its nonce is derived from the key and
the message's hash, so signing draws nothing at random and signs one message always the same way.
-/

namespace TapAccess

/-- The two numbers of a signature, one after the other. -/
abbrev Signature := Octets 64

namespace Signature

/-! ### The nonce -/

/-- The state of the generator of nonce candidates. -/
structure NonceState where
  key : Bytes
  value : Bytes

namespace NonceState

def update (s : NonceState) (seed : Bytes) : NonceState :=
  let key := (Hmac.tag s.key (s.value ++ seed)).toList
  ⟨key, (Hmac.tag key s.value).toList⟩

/-- The state for a key and a hash, both in 32 bytes. -/
def start (key hash : Octets 32) : NonceState :=
  let seed := key.toList ++ hash.toList
  let s : NonceState := ⟨List.replicate 32 0x00, List.replicate 32 0x01⟩
  (s.update (0x00 :: seed)).update (0x01 :: seed)

/-- The first candidate in range, of at most `attempts`. -/
def search : (attempts : Nat) → NonceState → Option PrivateKey
  | 0, _ => none
  | attempts + 1, s =>
    let value := Hmac.tag s.key s.value
    match PrivateKey.ofNat? value.toNat with
    | some k => some k
    | none => search attempts (NonceState.update ⟨s.key, value.toList⟩ [0x00])

end NonceState

/-- A candidate is out of range once in 2^32 times; this many in a row do not occur. -/
def maxAttempts : Nat := UInt64.size

/-- The hash of a message as a number below the order. -/
def hashScalar (message : Bytes) : Nat := (Sha256.digest message).toNat % P256.n

def nonce? (key : PrivateKey) (message : Bytes) : Option PrivateKey :=
  (NonceState.start key.encode (.ofNat 32 (hashScalar message))).search maxAttempts

/-! ### Signing and verifying -/

/-- The signature with the given nonce; none in the negligible case that one of its numbers is zero. -/
def withNonce? (key nonce : PrivateKey) (message : Bytes) : Option Signature :=
  match (P256.generator.multiple 256 nonce.value).toAffine? with
  | none => none
  | some (x, _) =>
    let r := x % P256.n
    let s := P256.invMod P256.n nonce.value * (hashScalar message + r * key.value) % P256.n
    if r = 0 ∨ s = 0 then none else some ((Octets.ofNat 32 r).append (.ofNat 32 s))

def sign? (key : PrivateKey) (message : Bytes) : Option Signature :=
  (nonce? key message).bind fun nonce => withNonce? key nonce message

/-- The numbers `r` and `s` verify for the hash scalar `z`: the point `(z/s)·G + (r/s)·Q` has
abscissa `r`. -/
def verifyScalars (key : PublicKey) (z r s : Nat) : Bool :=
  let w := P256.invMod P256.n s
  let point := (P256.generator.multiple 256 (z * w % P256.n)).add
    (key.toJacobian.multiple 256 (r * w % P256.n))
  match point.toAffine? with
  | none => false
  | some (x, _) => x % P256.n = r

/-- `signature` is one of `message` under `key`. Bytes that are not two numbers in range are none. -/
def verify (key : PublicKey) (message signature : Bytes) : Bool :=
  let r := Bytes.toNat (signature.take 32)
  let s := Bytes.toNat (signature.drop 32)
  signature.length = 64 && 0 < r && r < P256.n && 0 < s && s < P256.n &&
    verifyScalars key (hashScalar message) r s

end Signature

end TapAccess
