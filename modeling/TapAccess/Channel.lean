import TapAccess.Crypto.Gcm
import TapAccess.Identifier

/-!
# The secure channel

A channel is a message counter and, once the two sides have agreed on them, keys. Every encryption and
every decryption uses the counter for its nonce and advances it. Keys come in blocks of derived bytes
that are cut up without overlap.
-/

namespace TapAccess

/-! ### Keys -/

/-- The keys of an established channel. -/
structure ChannelKeys where
  exchangeReader : Octets 32
  exchangeDevice : Octets 32
  ble : Octets 32
  ur : Octets 32
  stepUp : Option (Octets 32)
  deriving DecidableEq

namespace ChannelKeys

/-- The keys of a fast transaction: what follows the cryptogram. -/
def ofFastBlock (block : Octets 144) : ChannelKeys where
  exchangeReader := block.slice 16 32
  exchangeDevice := block.slice 48 32
  ble := block.slice 80 32
  ur := block.slice 112 32
  stepUp := none

/-- The keys of a standard transaction. -/
def ofVolatileBlock (block : Octets 160) : ChannelKeys where
  exchangeReader := block.slice 0 32
  exchangeDevice := block.slice 32 32
  stepUp := some (block.slice 64 32)
  ble := block.slice 96 32
  ur := block.slice 128 32

def describe (keys : ChannelKeys) : String :=
  let hidden := "\"<redacted>\""
  "SecureChannelKeys \x7b exchange_sk_reader: " ++ hidden ++ ", exchange_sk_device: " ++ hidden
    ++ ", ble_sk: " ++ hidden ++ ", ur_sk: " ++ hidden ++ ", step_up_sk: "
    ++ (if keys.stepUp.isSome then "Some(" ++ hidden ++ ")" else "None") ++ " \x7d"

end ChannelKeys

/-- The cryptogram in front of the keys of a fast transaction. -/
def Cryptogram.ofFastBlock (block : Octets 144) : Cryptogram := block.slice 0 16

/-- The secret that a reader and an endpoint keep after a standard transaction. -/
structure PersistentKey where
  octets : Octets 32
  deriving DecidableEq

namespace PersistentKey

def parse (bytes : Bytes) : Except ProtocolError PersistentKey :=
  (Octets.parse 32 "persistent key" bytes).map PersistentKey.mk

def describe (_ : PersistentKey) : String := "PersistentKey(<redacted>)"

end PersistentKey

/-! ### Channels -/

/-- A message counter and the keys, if there are any yet. -/
structure Channel where
  counter : UInt32
  keys? : Option ChannelKeys
  deriving DecidableEq

namespace Channel

def new (keys? : Option ChannelKeys := none) : Channel := ⟨1, keys?⟩

def withKeys (c : Channel) (keys : ChannelKeys) : Channel := { c with keys? := some keys }

/-- The channel after one more message; the counter starts again at zero after its largest value. -/
def advanced (c : Channel) : Channel := { c with counter := c.counter + 1 }

/-- The keys; there have to be some. -/
def keys (c : Channel) : Except ProtocolError ChannelKeys :=
  match c.keys? with
  | some keys => .ok keys
  | none => .error .missingChannelKeys

/-- The nonce of the message with the given number: only the lowest byte of the number counts. -/
def nonce (counter : UInt32) : Octets 12 :=
  ⟨[0, 0, 0, 0, 0, 0, 0, 1, 0, 0, 0, counter.toUInt8], rfl⟩

/-- Encrypts a message under the device's key. -/
def encrypt (c : Channel) (message : Bytes) : Except ProtocolError (Channel × Bytes) := do
  let keys ← c.keys
  match Gcm.seal? keys.exchangeDevice (nonce c.counter) message with
  | some sealed => return (c.advanced, sealed)
  | none => throw (.aead "encryption")

/-- Decrypts a message that was encrypted under the device's key. -/
def decrypt (c : Channel) (sealed : Bytes) : Except ProtocolError (Channel × Bytes) := do
  let keys ← c.keys
  match Gcm.unseal? keys.exchangeDevice (nonce c.counter) sealed with
  | some message => return (c.advanced, message)
  | none => throw (.aead "decryption")

def describe (c : Channel) : String :=
  "SecureChannelState \x7b counter: " ++ toString c.counter ++ ", keys: "
    ++ (match c.keys? with
      | some keys => "Some(" ++ keys.describe ++ ")"
      | none => "None")
    ++ " \x7d"

end Channel

end TapAccess
