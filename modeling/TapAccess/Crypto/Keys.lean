import TapAccess.Crypto.Curve
import TapAccess.Crypto.Sha256
import TapAccess.Hex

/-!
# Keys and key agreement

A private key is a number between 1 and the curve's order, a public key a point of the curve other than
infinity, and a key pair a private key with the multiple of the generator that it gives. A public key
travels as 65 bytes: the mark of an uncompressed point and both coordinates. Two parties agree on the
abscissa of a common point.
-/

namespace TapAccess

/-- A number from 1 to one less than the curve's order. -/
structure PrivateKey where
  value : Nat
  pos : 0 < value
  lt_order : value < P256.n
  deriving DecidableEq

/-- A point of the curve in affine coordinates. -/
structure PublicKey where
  x : Nat
  y : Nat
  x_lt : x < P256.p
  y_lt : y < P256.p
  onCurve : P256.OnCurve x y
  deriving DecidableEq

namespace PublicKey

/-- The point with the given coordinates, when there is one. -/
def ofCoordinates? (x y : Nat) : Option PublicKey :=
  if h : x < P256.p ∧ y < P256.p ∧ P256.OnCurve x y then some ⟨x, y, h.1, h.2.1, h.2.2⟩ else none

def generator : PublicKey :=
  ⟨P256.generatorX, P256.generatorY, by decide +kernel, by decide +kernel, P256.onCurve_generator⟩

def toJacobian (k : PublicKey) : P256.Jacobian := .ofAffine k.x k.y

def xBytes (k : PublicKey) : Octets 32 := .ofNat 32 k.x

/-- The mark of an uncompressed point. -/
def uncompressed : UInt8 := 0x04

def encode (k : PublicKey) : Octets 65 :=
  ⟨uncompressed :: ((Octets.ofNat 32 k.x).toList ++ (Octets.ofNat 32 k.y).toList), by simp⟩

def decode? (bytes : Bytes) : Option PublicKey :=
  match bytes with
  | mark :: coordinates =>
    if mark = uncompressed ∧ coordinates.length = 64 then
      ofCoordinates? (Bytes.toNat (coordinates.take 32)) (Bytes.toNat (coordinates.drop 32))
    else none
  | [] => none

end PublicKey

namespace PrivateKey

def ofNat? (value : Nat) : Option PrivateKey :=
  if h : 0 < value ∧ value < P256.n then some ⟨value, h.1, h.2⟩ else none

def encode (k : PrivateKey) : Octets 32 := .ofNat 32 k.value

/-- The multiple of the generator that belongs to the key. A multiple below the order is never at
infinity, so the generator itself stands in for no key. -/
def publicKey (k : PrivateKey) : PublicKey :=
  (((P256.generator.multiple 256 k.value).toAffine?).bind fun (x, y) =>
    PublicKey.ofCoordinates? x y).getD .generator

/-- The abscissa of the other party's point multiplied by this key. -/
def sharedAbscissa (k : PrivateKey) (other : PublicKey) : Octets 32 :=
  match (other.toJacobian.multiple 256 k.value).toAffine? with
  | some (x, _) => .ofNat 32 x
  | none => .replicate 32 0

/-- The secret that both parties of an agreement derive for one transaction: the hash of the common
abscissa, a counter of one and the transaction's name. -/
def agree (k : PrivateKey) (other : PublicKey) (transaction : Bytes) : Octets 32 :=
  Sha256.digest ((k.sharedAbscissa other).toList ++ Bytes.ofNat 4 1 ++ transaction)

end PrivateKey

structure KeyPair where
  privateKey : PrivateKey
  publicKey : PublicKey
  publicKey_eq : publicKey = privateKey.publicKey
  deriving DecidableEq

namespace KeyPair

def ofPrivateKey (k : PrivateKey) : KeyPair := ⟨k, k.publicKey, rfl⟩

/-- The pair whose private key is the number that the bytes spell. -/
def ofOctets? (bytes : Octets 32) : Option KeyPair := (PrivateKey.ofNat? bytes.toNat).map ofPrivateKey

def decode? (bytes : Bytes) : Option KeyPair := (Octets.ofList? 32 bytes).bind ofOctets?

/-- The public key, and that there is another one. -/
def describe (k : KeyPair) : String :=
  "KeyPair \x7b secret: \"<redacted>\", public: \"" ++ Hex.encode k.publicKey.encode.toList ++ "\" \x7d"

end KeyPair

end TapAccess
