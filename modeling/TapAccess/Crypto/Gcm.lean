import TapAccess.Crypto.Aes

/-!
# AES-256 in Galois/counter mode

`seal` encrypts a message under a key and a nonce of twelve bytes and appends a tag of sixteen bytes;
`unseal` undoes it, and refuses a message whose tag does not belong to it. There is no associated data.
The keystream is the encryption of consecutive counter blocks, and the tag is a polynomial in the
ciphertext blocks, evaluated in the field of 2^128 elements and masked by one more keystream block.
-/

namespace TapAccess.Gcm

/-! ### The tag polynomial -/

/-- Up to sixteen bytes as a field element; a shorter block is filled up with zeros on the right. -/
def elementOf (block : Bytes) : BitVec 128 :=
  BitVec.ofNat 128 (Bytes.toNat block <<< (8 * (16 - block.length)))

/-- One step of a product: `z` gathers the multiple `v` of the one factor when bit `i` of the other is set. -/
def multiplyStep (x : BitVec 128) (zv : BitVec 128 × BitVec 128) (i : Nat) : BitVec 128 × BitVec 128 :=
  let z := if x.getMsbD i then zv.1 ^^^ zv.2 else zv.1
  let v := zv.2 >>> 1
  (z, if zv.2.getLsbD 0 then v ^^^ BitVec.ofNat 128 (0xE1 <<< 120) else v)

/-- The product in the field of 2^128 elements, whose bits are numbered from the most significant one. -/
def multiply (x y : BitVec 128) : BitVec 128 :=
  ((List.range 128).foldl (multiplyStep x) (0, y)).1

/-- Evaluates the polynomial with the given coefficients at `h`, by Horner's rule. -/
def hash (h : BitVec 128) (blocks : List Bytes) : BitVec 128 :=
  blocks.foldl (fun acc block => multiply (acc ^^^ elementOf block) h) 0

/-! ### The keystream -/

def counterBlock (nonce : Octets 12) (i : Nat) : Bytes := nonce.toList ++ Bytes.ofNat 4 i

/-- At least `length` bytes of keystream, from counter block 2 on. -/
def keystream (keys : List Bytes) (nonce : Octets 12) (length : Nat) : Bytes :=
  (List.range ((length + 15) / 16)).flatMap fun i => Aes.encryptWith keys (counterBlock nonce (i + 2))

/-- The message combined with the keystream; doing it twice gives the message back. -/
def applyKeystream (keys : List Bytes) (nonce : Octets 12) (message : Bytes) : Bytes :=
  Bytes.xor message (keystream keys nonce message.length)

def tag (keys : List Bytes) (nonce : Octets 12) (ciphertext : Bytes) : Bytes :=
  let h := elementOf (Aes.encryptWith keys (List.replicate 16 0))
  let blocks := Bytes.chunks 16 ciphertext ++ [Bytes.ofNat 16 (8 * ciphertext.length)]
  Bytes.xor (Bytes.ofNat 16 (hash h blocks).toNat) (Aes.encryptWith keys (counterBlock nonce 1))

/-! ### Messages -/

/-- The longest message that is encrypted, in bytes. -/
def maxLength : Nat := 0x1000000000

/-- The ciphertext of `message`, followed by its tag. -/
def encrypt (key : Octets 32) (nonce : Octets 12) (message : Bytes) : Bytes :=
  let keys := Aes.roundKeys key
  let ciphertext := applyKeystream keys nonce message
  ciphertext ++ tag keys nonce ciphertext

/-- The ciphertext of a message that is short enough to be encrypted. -/
def seal? (key : Octets 32) (nonce : Octets 12) (message : Bytes) : Option Bytes :=
  if message.length ≤ maxLength then some (encrypt key nonce message) else none

/-- The message of a ciphertext that ends in its own tag. -/
def unseal? (key : Octets 32) (nonce : Octets 12) (sealed : Bytes) : Option Bytes :=
  if sealed.length < 16 ∨ maxLength + 16 < sealed.length then none
  else
    let keys := Aes.roundKeys key
    let ciphertext := sealed.take (sealed.length - 16)
    if tag keys nonce ciphertext = sealed.drop (sealed.length - 16) then
      some (applyKeystream keys nonce ciphertext)
    else none

end TapAccess.Gcm
