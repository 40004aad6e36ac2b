import TapAccess.CredentialStore
import TapAccess.Crypto.Reported
import TapAccess.Json.Read
import TapAccess.Versions

/-!
# A reader's configuration

Who a reader is and what it may do: its name, the key pair of its group, whether it asks for fast
transactions, and the versions that it supports. The configuration is kept as JSON with the bytes in
hexadecimal. When it is read, a field that does not have to be there gets its usual value, and the fields
may also stand in a list in their order.
-/

namespace TapAccess.Reader

/-- Who a reader is and what it may do. -/
structure Configuration where
  identifier : ReaderIdentifier
  keyPair : KeyPair
  sendFastTransaction : Bool := true
  versions : Versions := .standard
  deriving DecidableEq

/-- Why a text is no configuration. -/
inductive ConfigurationError where
  | json
  | hex (cause : Hex.DecodeError)
  | protocol (cause : ProtocolError)
  deriving DecidableEq, Repr

namespace ConfigurationError

def message : ConfigurationError → String
  | json => "invalid reader configuration JSON: a field is missing or malformed"
  | hex cause => "invalid hex in reader configuration: " ++ cause.message
  | protocol cause => cause.message

/-- The texts that report the error and what caused it, the error first. -/
def chain : ConfigurationError → List String
  | json => [message json, "a field is missing or malformed"]
  | hex cause => [message (hex cause), cause.message]
  | protocol cause => [cause.message]

end ConfigurationError

namespace Configuration

/-- A new reader with a name and a key pair of its own. -/
def generate (r : RandomSource) : Configuration × RandomSource :=
  let (group, r) := r.octets 16
  let (subGroup, r) := r.octets 16
  let (keyPair, r) := r.keyPair
  ({ identifier := ⟨group, subGroup⟩, keyPair }, r)

/-! ### Fields -/

/-- The fields of a configuration as they are written. -/
structure Fields where
  group : String
  subGroup : String
  privateKey : String
  sendFastTransaction : Bool
  versions : Versions

def textOfJson? : Json → Option String
  | .text value => some value
  | _ => none

def boolOfJson? : Json → Option Bool
  | .bool value => some value
  | _ => none

/-- Reads a field, or takes the usual value for one that is absent. -/
def orUsual {α : Type} (usual : α) (read : Json → Option α) : Option Json → Option α
  | none => some usual
  | some value => read value

/-- The names of the fields in their order. -/
def fieldNames : List String :=
  ["group_identifier", "sub_group_identifier", "private_key", "send_fast_transaction", "versions"]

/-- The fields in their order, each of them absent or there. -/
def arrange? : Json → Option (List (Option Json))
  | .array items =>
    if items.length ≤ fieldNames.length then
      some (items.map some ++ List.replicate (fieldNames.length - items.length) none)
    else none
  | .object members =>
    fieldNames.mapM fun name =>
      match members.filter fun entry => entry.1 = name with
      | [] => some none
      | [entry] => some (some entry.2)
      | _ => none
  | _ => none

def fieldsOfJson? (value : Json) : Option Fields := do
  match ← arrange? value with
  | [some group, some subGroup, some privateKey, sendFastTransaction, versions] =>
    return {
      group := ← textOfJson? group
      subGroup := ← textOfJson? subGroup
      privateKey := ← textOfJson? privateKey
      sendFastTransaction := ← orUsual true boolOfJson? sendFastTransaction
      versions := ← orUsual .standard Versions.ofJson? versions }
  | _ => none

/-! ### Texts -/

/-- Reads bytes in hexadecimal. -/
def bytesOfField (field : String) : Except ConfigurationError Bytes :=
  (Hex.decode field).mapError ConfigurationError.hex

/-- Reads an identifier in hexadecimal. -/
def identifierOfField (name field : String) : Except ConfigurationError Identifier := do
  (Octets.parse 16 name (← bytesOfField field)).mapError ConfigurationError.protocol

def ofJson (text : String) : Except ConfigurationError Configuration := do
  match (Json.parse? text).bind fieldsOfJson? with
  | none => throw .json
  | some fields =>
    let group ← identifierOfField "group identifier" fields.group
    let subGroup ← identifierOfField "sub-group identifier" fields.subGroup
    let keyPair ← (KeyPair.parse (← bytesOfField fields.privateKey)).mapError ConfigurationError.protocol
    return {
      identifier := ⟨group, subGroup⟩
      keyPair
      sendFastTransaction := fields.sendFastTransaction
      versions := fields.versions }

def toJson (c : Configuration) : String :=
  Json.pretty (.object [
    ("group_identifier", .text (Hex.encode c.identifier.group.toList)),
    ("sub_group_identifier", .text (Hex.encode c.identifier.subGroup.toList)),
    ("private_key", .text (Hex.encode c.keyPair.privateKey.encode.toList)),
    ("send_fast_transaction", .bool c.sendFastTransaction),
    ("versions", c.versions.toJson)])

end Configuration

end TapAccess.Reader
