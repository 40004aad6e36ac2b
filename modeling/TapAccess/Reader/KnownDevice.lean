import TapAccess.Channel
import TapAccess.Crypto.Keys

/-!
# Devices that a reader has met

After a standard transaction the reader keeps the endpoint's public key and the key that both share. The
list only grows, and the readers of one group share it.
-/

namespace TapAccess.Reader

/-- An endpoint that completed a standard transaction. -/
structure KnownDevice where
  publicKey : PublicKey
  persistentKey : PersistentKey
  deriving DecidableEq

/-- The public key, and that there is another one. -/
def KnownDevice.describe (d : KnownDevice) : String :=
  "KnownUserDevice \x7b public_key: \"" ++ Hex.encode d.publicKey.encode.toList
    ++ "\", persistent_key: \"<redacted>\" \x7d"

/-- The devices that the readers of a group have met, the oldest first. -/
structure KnownDevices where
  devices : List KnownDevice
  deriving DecidableEq

namespace KnownDevices

def empty : KnownDevices := ⟨[]⟩

def add (k : KnownDevices) (d : KnownDevice) : KnownDevices := ⟨k.devices ++ [d]⟩

def size (k : KnownDevices) : Nat := k.devices.length

/-- The devices, without their keys. -/
def describe (k : KnownDevices) : String :=
  "[" ++ String.intercalate ", " (k.devices.map KnownDevice.describe) ++ "]"

end KnownDevices

end TapAccess.Reader
