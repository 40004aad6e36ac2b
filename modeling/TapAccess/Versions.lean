import TapAccess.Json.Read

/-!
# Protocol versions

Each side supports a list of versions, in its order of preference. The endpoint offers its list as
consecutive numbers of two bytes; the reader takes the first version on offer that it supports too.
-/

namespace TapAccess

/-- A protocol version, the major number in the upper byte. -/
abbrev Version := UInt16

def Version.encode (v : Version) : Octets 2 := .ofNat 2 v.toNat

/-- The versions that a side supports, the preferred one first. -/
structure Versions where
  supported : List Version
  deriving DecidableEq, Repr

namespace Versions

/-- Version 1.0, then version 0.7. -/
def standard : Versions := ⟨[0x0100, 0x0007]⟩

/-- The list as consecutive numbers of two bytes. -/
def encode (v : Versions) : Bytes := v.supported.flatMap fun version => (Version.encode version).toList

/-- Reads consecutive numbers of two bytes; an odd byte at the end is dropped. -/
def decodeOffer : Bytes → List Version
  | high :: low :: rest => UInt16.ofNat (Bytes.toNat [high, low]) :: decodeOffer rest
  | _ => []

def Supports (v : Versions) (version : Version) : Prop := version ∈ v.supported

instance (v : Versions) (version : Version) : Decidable (v.Supports version) :=
  inferInstanceAs (Decidable (_ ∈ _))

/-- The first version on offer that is supported. -/
def negotiate? (v : Versions) (offer : Bytes) : Option Version :=
  (decodeOffer offer).find? fun version => v.Supports version

/-! ### JSON -/

/-- Reads a list of numbers of 16 bits. -/
def ofJson? : Json → Option Versions
  | .array items => do
    let numbers ← items.mapM Json.natural?
    if numbers.all (· < 65536) then some ⟨numbers.map UInt16.ofNat⟩ else none
  | _ => none

def toJson (v : Versions) : Json := .array (v.supported.map fun version => .ofNat version.toNat)

end Versions

end TapAccess
