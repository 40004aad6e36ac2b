import TapAccess.Crypto.Signature
import TapAccess.Error

/-!
# Cryptography with reported failures

Reading keys, signing and deriving for callers that pass a failure on to the other side.
-/

namespace TapAccess

def PublicKey.parse (bytes : Bytes) : Except ProtocolError PublicKey :=
  match decode? bytes with
  | some key => .ok key
  | none => .error .invalidPublicKey

def KeyPair.parse (bytes : Bytes) : Except ProtocolError KeyPair :=
  match decode? bytes with
  | some pair => .ok pair
  | none => .error .invalidPrivateKey

def Signature.make (key : PrivateKey) (message : Bytes) : Except ProtocolError Signature :=
  (sign? key message).elim (.error (.signing "signature error")) .ok

/-- `n` bytes derived from the key material `ikm`; there are no more than 255 blocks of them. -/
def deriveKey (ikm salt info : Bytes) (n : Nat) : Except ProtocolError (Octets n) :=
  match Hkdf.derive? ikm salt info n with
  | some key => .ok key
  | none => .error (.keyDerivation "invalid number of blocks, too large output")

end TapAccess
