import TapAccess.Channel
import TapAccess.Crypto.Hmac
import TapAccess.Message.Fields
import TapAccess.Versions

/-!
# What both sides sign and derive

The reader and the endpoint compute the same byte strings from a handshake: the data that each of them
signs, and the inputs from which keys are derived. They are written down here once for both sides.
-/

namespace TapAccess

/-- The two bytes that bind a handshake to its first message: the parameter byte and the transaction
code. -/
abbrev Flag := Octets 2

/-- The names and ephemeral keys that both sides know after the first exchange. -/
structure Handshake where
  readerIdentifier : ReaderIdentifier
  readerEphemeral : PublicKey
  endpointEphemeral : PublicKey
  transactionIdentifier : Identifier
  deriving DecidableEq

def contactlessInterface : UInt8 := 0x5E

/-- The byte in front of a version or a list of versions. -/
def versionMark : UInt8 := 0x5C

/-- A list of versions with its length in one byte before it; a longer length is cut to that byte. -/
def markedVersions (versions : Bytes) : Bytes :=
  versionMark :: (Bytes.ofNat 1 versions.length ++ versions)

/-! ### Signed data -/

/-- What a signature is made for. -/
abbrev Usage := Octets 4

def Usage.reader : Usage := .ofNat 4 0x415D9569

def Usage.endpoint : Usage := .ofNat 4 0x4E887B4C

/-- The objects that a side signs. -/
def Handshake.authenticationObjects (h : Handshake) (usage : Usage) : List Tlv.Object := [
  .readerIdentifier h.readerIdentifier,
  .endpointEphemeral h.endpointEphemeral.xBytes.toList,
  .readerEphemeral h.readerEphemeral.xBytes.toList,
  .transactionIdentifier h.transactionIdentifier,
  .ofValue 0x93 usage.toList]

def Handshake.authenticationData (h : Handshake) (usage : Usage) : Bytes :=
  Tlv.Object.encodeAll (h.authenticationObjects usage)

/-! ### Fast transactions -/

/-- What a fast transaction's cryptogram and keys depend on. -/
structure FastDerivation where
  transactionIdentifier : Identifier
  endpointKey : PublicKey
  readerKey : PublicKey
  readerIdentifier : ReaderIdentifier
  persistentKey : PersistentKey
  version : Version
  /-- The endpoint's versions, as it offered them. -/
  supportedVersions : Bytes
  readerEphemeral : PublicKey
  endpointEphemeral : PublicKey
  flag : Flag

namespace FastDerivation

/-- Everything about the transaction but the endpoint's ephemeral key. -/
def salt (d : FastDerivation) : Bytes :=
  d.readerKey.xBytes.toList ++ Bytes.ofText "VolatileFast" ++ d.readerIdentifier.encode.toList
    ++ d.endpointKey.xBytes.toList ++ [contactlessInterface] ++ markedVersions d.supportedVersions
    ++ markedVersions d.version.encode.toList ++ d.readerEphemeral.xBytes.toList
    ++ d.transactionIdentifier.toList ++ d.flag.toList

def block (d : FastDerivation) : Octets 144 :=
  Hkdf.derive d.persistentKey.octets.toList d.salt d.endpointEphemeral.xBytes.toList 144

def cryptogram (d : FastDerivation) : Cryptogram := .ofFastBlock d.block

def keys (d : FastDerivation) : ChannelKeys := .ofFastBlock d.block

end FastDerivation

/-! ### Standard transactions -/

/-- The two kinds of keys that a standard transaction derives. -/
inductive KeyLifetime where
  | volatile
  | persistent
  deriving DecidableEq, Repr

def KeyLifetime.label : KeyLifetime → Bytes
  | .volatile => Bytes.ofText "Volatile"
  | .persistent => Bytes.ofText "Persistent"

/-- What a standard transaction's keys depend on, apart from the secret agreed on. -/
structure StandardDerivation where
  handshake : Handshake
  flag : Flag
  version : Version
  /-- The endpoint's versions, as it offered them. -/
  supportedVersions : Bytes

namespace StandardDerivation

/-- The bytes that keys of one kind are bound to. -/
def info (d : StandardDerivation) (lifetime : KeyLifetime) : Bytes :=
  d.handshake.readerEphemeral.xBytes.toList ++ d.handshake.endpointEphemeral.xBytes.toList
    ++ d.handshake.transactionIdentifier.toList ++ [contactlessInterface] ++ d.flag.toList
    ++ lifetime.label ++ markedVersions d.version.encode.toList ++ markedVersions d.supportedVersions

/-- `n` bytes of one kind from the secret agreed on. -/
def derive (d : StandardDerivation) (secret : Octets 32) (lifetime : KeyLifetime) (n : Nat) : Octets n :=
  Hkdf.derive secret.toList (List.replicate 32 0) (d.info lifetime) n

def channelKeys (d : StandardDerivation) (secret : Octets 32) : ChannelKeys :=
  .ofVolatileBlock (d.derive secret .volatile 160)

def persistentKey (d : StandardDerivation) (secret : Octets 32) : PersistentKey :=
  ⟨d.derive secret .persistent 32⟩

end StandardDerivation

end TapAccess
