import TapAccess.Error

/-!
# Identifiers

Transactions and groups of readers are named by sixteen bytes. A reader is named by its group and a name
inside the group. All of them are shown in upper case hexadecimal.
-/

namespace TapAccess

/-- Reads exactly `n` bytes; `field` names them in the error. -/
def Octets.parse (n : Nat) (field : String) (bytes : Bytes) : Except ProtocolError (Octets n) :=
  match Octets.ofList? n bytes with
  | some octets => .ok octets
  | none => .error (.invalidLength field n bytes.length)

def Octets.shown {n : Nat} (a : Octets n) : String := Hex.encodeUpper a.toList

/-- The name of a transaction, a group of readers, or a reader inside its group. -/
abbrev Identifier := Octets 16

/-- The sixteen bytes with which an endpoint shows that it knows a persistent key. -/
abbrev Cryptogram := Octets 16

structure ReaderIdentifier where
  group : Identifier
  subGroup : Identifier
  deriving DecidableEq

namespace ReaderIdentifier

def encode (r : ReaderIdentifier) : Octets 32 := r.group.append r.subGroup

def parse (bytes : Bytes) : Except ProtocolError ReaderIdentifier := do
  let octets ← Octets.parse 32 "reader identifier" bytes
  return ⟨octets.slice 0 16, octets.slice 16 16⟩

def shown (r : ReaderIdentifier) : String := r.group.shown ++ r.subGroup.shown

def describe (r : ReaderIdentifier) : String :=
  "ReaderIdentifier \x7b group: " ++ r.group.shown ++ ", sub_group: " ++ r.subGroup.shown ++ " \x7d"

end ReaderIdentifier

end TapAccess
