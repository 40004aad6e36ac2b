import TapAccess.Proofs.Json.Pretty
import TapAccess.Reader.Configuration

/-!
# Keeping a configuration

A reader's configuration is kept as text and loaded again. What is loaded is what was kept, whatever the configuration
is (`Configuration.ofJson_toJson`): a list of versions that is empty stays empty, and does not become the usual one, as
a list does that is not there.
-/

namespace TapAccess

theorem KeyPair.parse_encode (k : KeyPair) : KeyPair.parse k.privateKey.encode.toList = .ok k := by
  obtain ⟨⟨value, hpos, hlt⟩, publicKey, rfl⟩ := k
  have hwidth : P256.n < 256 ^ 32 := by decide +kernel
  have hvalue : (PrivateKey.encode ⟨value, hpos, hlt⟩).toNat = value :=
    Octets.toNat_ofNat_of_lt (Nat.lt_trans hlt hwidth)
  rw [parse, decode?, Octets.ofList?_toList, Option.bind_some, ofOctets?, hvalue, PrivateKey.ofNat?, dif_pos ⟨hpos, hlt⟩]
  rfl

theorem Versions.ofJson?_toJson (v : Versions) : ofJson? v.toJson = some v := by
  obtain ⟨supported⟩ := v
  have hnumbers : (supported.map fun version => Json.ofNat version.toNat).mapM Json.natural? =
      some (supported.map UInt16.toNat) := by
    induction supported with
    | nil => rfl
    | cons version supported ih =>
      rw [List.map_cons, List.mapM_cons, Json.natural?_ofNat, ih]
      rfl
  have hfit : (supported.map UInt16.toNat).all (· < 65536) := by
    rw [List.all_map, List.all_eq_true]
    exact fun version _ => decide_eq_true version.toNat_lt
  have hback : (supported.map UInt16.toNat).map UInt16.ofNat = supported := by
    rw [List.map_map]
    exact List.map_id'' (fun version => UInt16.ofNat_toNat) supported
  rw [toJson, ofJson?, hnumbers]
  show (if _ then some (Versions.mk _) else none) = _
  rw [if_pos hfit, hback]

namespace Reader.Configuration

/-- What stands in a configuration's text, by name. -/
def members (c : Configuration) : List (String × Json) := [
  ("group_identifier", .text (Hex.encode c.identifier.group.toList)),
  ("sub_group_identifier", .text (Hex.encode c.identifier.subGroup.toList)),
  ("private_key", .text (Hex.encode c.keyPair.privateKey.encode.toList)),
  ("send_fast_transaction", .bool c.sendFastTransaction),
  ("versions", c.versions.toJson)]

theorem plain_members (c : Configuration) : Json.Plain (.object c.members) := by
  refine .object ?_
  simp only [members, List.forall_mem_cons, List.not_mem_nil, false_implies, implies_true, and_true]
  refine ⟨.text _, .text _, .text _, .bool _, .array fun item hitem => ?_⟩
  obtain ⟨version, -, rfl⟩ := List.mem_map.mp hitem
  exact .natural _

theorem parse?_toJson (c : Configuration) : Json.parse? c.toJson = some (.object c.members) :=
  Json.parse?_pretty c.plain_members

theorem fieldsOfJson?_members (c : Configuration) :
    fieldsOfJson? (.object c.members) = some {
      group := Hex.encode c.identifier.group.toList
      subGroup := Hex.encode c.identifier.subGroup.toList
      privateKey := Hex.encode c.keyPair.privateKey.encode.toList
      sendFastTransaction := c.sendFastTransaction
      versions := c.versions } := by
  have harrange : arrange? (.object c.members) = some (c.members.map fun entry => some entry.2) := rfl
  rw [fieldsOfJson?, harrange]
  show (Versions.ofJson? c.versions.toJson).bind _ = _
  rw [Versions.ofJson?_toJson]
  rfl

theorem identifierOfField_encode (name : String) (a : Identifier) :
    identifierOfField name (Hex.encode a.toList) = .ok a := by
  rw [identifierOfField, bytesOfField, Hex.decode_encode]
  show (Octets.parse 16 name a.toList).mapError _ = _
  rw [Octets.parse_toList]
  rfl

/-- Any configuration is read back from its text, also one that has been read from another text before. -/
theorem ofJson_toJson (c : Configuration) :
    Json.parse? c.toJson = some (.object c.members) ∧ ofJson c.toJson = .ok c ∧
    ∀ text, ofJson text = .ok c → ofJson c.toJson = ofJson text := by
  have hread : ofJson c.toJson = .ok c := by
    rw [ofJson, parse?_toJson, Option.bind_some, fieldsOfJson?_members]
    dsimp only
    rw [identifierOfField_encode, identifierOfField_encode, bytesOfField, Hex.decode_encode]
    show (KeyPair.parse _).mapError _ >>= _ = _
    rw [KeyPair.parse_encode]
    rfl
  exact ⟨c.parse?_toJson, hread, fun text htext => hread.trans htext.symm⟩

/-- A text without the flag, with no versions, and with digits in either case. -/
def shortText : String :=
  "\x7b \"sub_group_identifier\": \"EFE89CD4C2483D5BEECC1C394B9E8163\", \"versions\": [], " ++
  "\"group_identifier\": \"ca922d974bf1e4ddb106fc0d7793db6b\", \"private_key\": " ++
  "\"C9AFA9D845BA75166B5C215767B1D6934E50c3db36e89b127b8a622b120f6721\" \x7d"

/-- What the text says. -/
def shortConfiguration : Configuration where
  identifier :=
    ⟨⟨[0xCA, 0x92, 0x2D, 0x97, 0x4B, 0xF1, 0xE4, 0xDD, 0xB1, 0x06, 0xFC, 0x0D, 0x77, 0x93, 0xDB, 0x6B], rfl⟩,
      ⟨[0xEF, 0xE8, 0x9C, 0xD4, 0xC2, 0x48, 0x3D, 0x5B, 0xEE, 0xCC, 0x1C, 0x39, 0x4B, 0x9E, 0x81, 0x63], rfl⟩⟩
  keyPair := .ofPrivateKey
    ⟨0xC9AFA9D845BA75166B5C215767B1D6934E50C3DB36E89B127B8A622B120F6721, by decide, by decide +kernel⟩
  versions := ⟨[]⟩

theorem ofJson_shortText : ofJson shortText = .ok shortConfiguration := by
  have hread : (ofJson shortText).toOption = some shortConfiguration := by decide +kernel
  cases hresult : ofJson shortText with
  | ok c =>
    rw [hresult] at hread
    exact congrArg Except.ok (Option.some.inj hread)
  | error cause =>
    rw [hresult] at hread
    cases hread

/-- What is kept is not the text, and yet says the same. -/
theorem ofJson_toJson_shortText :
    ofJson shortText = .ok shortConfiguration ∧ ofJson shortConfiguration.toJson = ofJson shortText :=
  ⟨ofJson_shortText, (ofJson_toJson shortConfiguration).2.2 shortText ofJson_shortText⟩

end Reader.Configuration

end TapAccess
