import TapAccess.KeySchedule
import TapAccess.Proofs.Message.Commands

/-!
# Transcripts tell what they were made from

Keys and signatures are bound to byte strings in which the fields of a handshake stand one behind the other.
`transcripts_injective`: two of these byte strings are the same only when every field that goes into them is, up to
the ordinate of a public key, which is never written. So keys of one lifetime are never those of the other, and no
side's signature is one of the other side.

The fields have a fixed width and are taken off the front one by one (`Octets.toList_append_inj`), all but the list of
versions. The byte in front of it does not always tell its length, as a length of 256 or more is cut. But whatever
stands behind the list is equally long on both sides, and that fixes where the list ends
(`markedVersions_append_inj`).
-/

namespace TapAccess

/-! ### Fields -/

namespace Octets

variable {n : Nat}

theorem toList_inj {a b : Octets n} : a.toList = b.toList ↔ a = b :=
  ⟨Octets.ext, congrArg toList⟩

theorem toList_append_inj {a b : Octets n} {s t : Bytes} : a.toList ++ s = b.toList ++ t ↔ a = b ∧ s = t := by
  constructor
  · intro h
    obtain ⟨hfield, hrest⟩ := List.append_inj h (by simp)
    exact ⟨toList_inj.mp hfield, hrest⟩
  · rintro ⟨rfl, rfl⟩
    rfl

end Octets

theorem PublicKey.xBytes_inj {k k' : PublicKey} : k.xBytes = k'.xBytes ↔ k.x = k'.x := by
  have hp : P256.p < 256 ^ 32 := by decide
  have htoNat (k : PublicKey) : k.xBytes.toNat = k.x :=
    Octets.toNat_ofNat_of_lt (Nat.lt_trans k.x_lt hp)
  constructor
  · intro h
    rw [← htoNat k, h, htoNat k']
  · intro h
    rw [xBytes, xBytes, h]

theorem ReaderIdentifier.encode_inj {r r' : ReaderIdentifier} : r.encode = r'.encode ↔ r = r' := by
  constructor
  · intro h
    have hparse := r.parse_encode
    rw [h, r'.parse_encode, Except.ok.injEq] at hparse
    exact hparse.symm
  · intro h
    rw [h]

theorem Version.encode_inj {v v' : Version} : Version.encode v = Version.encode v' ↔ v = v' := by
  constructor
  · intro h
    rw [← Version.toNat_encode v, h, Version.toNat_encode]
  · intro h
    rw [h]

/-! ### Lists of versions -/

theorem length_markedVersions (versions : Bytes) : (markedVersions versions).length = versions.length + 2 := by
  simp [markedVersions]
  omega

theorem markedVersions_inj {a b : Bytes} : markedVersions a = markedVersions b ↔ a = b := by
  constructor
  · intro h
    obtain ⟨-, hmarked⟩ := List.cons.inj h
    exact List.append_inj_right hmarked (by simp)
  · intro h
    rw [h]

/-- Where a list of versions ends is known from what is left. -/
theorem markedVersions_append_inj {a b s t : Bytes} (hlength : s.length = t.length) :
    markedVersions a ++ s = markedVersions b ++ t ↔ a = b ∧ s = t := by
  constructor
  · intro h
    obtain ⟨hmarked, hrest⟩ := List.append_inj' h hlength
    exact ⟨markedVersions_inj.mp hmarked, hrest⟩
  · rintro ⟨rfl, rfl⟩
    rfl

theorem markedVersion_append_inj {v v' : Version} {s t : Bytes} :
    markedVersions (Version.encode v).toList ++ s = markedVersions (Version.encode v').toList ++ t ↔
      v = v' ∧ s = t := by
  constructor
  · intro h
    obtain ⟨hmarked, hrest⟩ := List.append_inj h (by simp [length_markedVersions])
    rw [markedVersions_inj, Octets.toList_inj, Version.encode_inj] at hmarked
    exact ⟨hmarked, hrest⟩
  · rintro ⟨rfl, rfl⟩
    rfl

/-! ### Fast transactions -/

/-- The derivations agree in everything that the salt is made of. -/
structure FastDerivation.Agree (d d' : FastDerivation) : Prop where
  readerKey : d.readerKey.x = d'.readerKey.x
  readerIdentifier : d.readerIdentifier = d'.readerIdentifier
  endpointKey : d.endpointKey.x = d'.endpointKey.x
  supportedVersions : d.supportedVersions = d'.supportedVersions
  version : d.version = d'.version
  readerEphemeral : d.readerEphemeral.x = d'.readerEphemeral.x
  transactionIdentifier : d.transactionIdentifier = d'.transactionIdentifier
  flag : d.flag = d'.flag

theorem FastDerivation.salt_inj {d d' : FastDerivation} : d.salt = d'.salt ↔ Agree d d' := by
  have htail : (markedVersions d.version.encode.toList ++ (d.readerEphemeral.xBytes.toList ++
      (d.transactionIdentifier.toList ++ d.flag.toList))).length =
      (markedVersions d'.version.encode.toList ++ (d'.readerEphemeral.xBytes.toList ++
        (d'.transactionIdentifier.toList ++ d'.flag.toList))).length := by
    simp [length_markedVersions]
  simp only [salt, List.append_assoc, Octets.toList_append_inj, List.append_cancel_left_eq,
    markedVersions_append_inj htail, markedVersion_append_inj, Octets.toList_inj, PublicKey.xBytes_inj,
    ReaderIdentifier.encode_inj]
  constructor
  · rintro ⟨hreaderKey, hreader, hendpointKey, hsupported, hversion, hephemeral, hname, hflag⟩
    exact ⟨hreaderKey, hreader, hendpointKey, hsupported, hversion, hephemeral, hname, hflag⟩
  · rintro ⟨hreaderKey, hreader, hendpointKey, hsupported, hversion, hephemeral, hname, hflag⟩
    exact ⟨hreaderKey, hreader, hendpointKey, hsupported, hversion, hephemeral, hname, hflag⟩

/-! ### Standard transactions -/

theorem KeyLifetime.label_append_inj {l l' : KeyLifetime} {s t : Bytes} :
    l.label ++ s = l'.label ++ t ↔ l = l' ∧ s = t := by
  -- the labels differ in their first byte, so that what follows them does not matter
  have hvolatile : label .volatile = 0x56 :: (label .volatile).tail := by decide +kernel
  have hpersistent : label .persistent = 0x50 :: (label .persistent).tail := by decide +kernel
  cases l with
  | volatile =>
    cases l' with
    | volatile => simp
    | persistent =>
      rw [hvolatile, hpersistent]
      simp
  | persistent =>
    cases l' with
    | volatile =>
      rw [hvolatile, hpersistent]
      simp
    | persistent => simp

/-- The derivations agree in everything that keys of one lifetime are bound to. -/
structure StandardDerivation.Agree (d d' : StandardDerivation) : Prop where
  readerEphemeral : d.handshake.readerEphemeral.x = d'.handshake.readerEphemeral.x
  endpointEphemeral : d.handshake.endpointEphemeral.x = d'.handshake.endpointEphemeral.x
  transactionIdentifier : d.handshake.transactionIdentifier = d'.handshake.transactionIdentifier
  flag : d.flag = d'.flag
  version : d.version = d'.version
  supportedVersions : d.supportedVersions = d'.supportedVersions

theorem StandardDerivation.info_inj {d d' : StandardDerivation} {l l' : KeyLifetime} :
    d.info l = d'.info l' ↔ l = l' ∧ Agree d d' := by
  simp only [info, List.append_assoc, Octets.toList_append_inj, List.append_cancel_left_eq,
    KeyLifetime.label_append_inj, markedVersion_append_inj, markedVersions_inj, PublicKey.xBytes_inj]
  constructor
  · rintro ⟨hreader, hendpoint, hname, hflag, hlifetime, hversion, hsupported⟩
    exact ⟨hlifetime, hreader, hendpoint, hname, hflag, hversion, hsupported⟩
  · rintro ⟨hlifetime, hreader, hendpoint, hname, hflag, hversion, hsupported⟩
    exact ⟨hreader, hendpoint, hname, hflag, hlifetime, hversion, hsupported⟩

/-! ### Signed data -/

namespace Handshake

/-- The tags and values of the objects that a side signs. -/
def authenticationFields (h : Handshake) (usage : Usage) : List (UInt8 × Bytes) := [
  (0x4D, h.readerIdentifier.encode.toList),
  (0x86, h.endpointEphemeral.xBytes.toList),
  (0x87, h.readerEphemeral.xBytes.toList),
  (0x4C, h.transactionIdentifier.toList),
  (0x93, usage.toList)]

/-- The signed data, put together from objects whose tags are looked at one by one. -/
def authenticationData? (h : Handshake) (usage : Usage) : Except Tlv.TlvError Bytes := do
  let objects ← (h.authenticationFields usage).mapM fun field => Tlv.Object.primitive? field.1 field.2
  return Tlv.Object.encodeAll objects

theorem authenticationData?_eq (h : Handshake) (usage : Usage) :
    h.authenticationData? usage = .ok (h.authenticationData usage) := by
  have hobjects : ((h.authenticationFields usage).mapM fun field => Tlv.Object.primitive? field.1 field.2) =
      .ok (h.authenticationObjects usage) := by
    simp only [authenticationFields, List.mapM_cons, List.mapM_nil,
      Tlv.Object.primitive?_eq_ok 0x4D _ (by decide) (by decide),
      Tlv.Object.primitive?_eq_ok 0x86 _ (by decide) (by decide),
      Tlv.Object.primitive?_eq_ok 0x87 _ (by decide) (by decide),
      Tlv.Object.primitive?_eq_ok 0x4C _ (by decide) (by decide),
      Tlv.Object.primitive?_eq_ok 0x93 _ (by decide) (by decide)]
    rfl
  rw [authenticationData?, hobjects]
  rfl

theorem allEncodable_authenticationObjects (h : Handshake) (usage : Usage) :
    Tlv.Object.AllEncodable (h.authenticationObjects usage) := by
  simp [authenticationObjects, Tlv.Object.AllEncodable, Tlv.Object.readerIdentifier,
    Tlv.Object.endpointEphemeral, Tlv.Object.readerEphemeral, Tlv.Object.transactionIdentifier,
    Tlv.Object.encodable_ofValue_iff]

/-- The handshakes agree in everything that a side signs. -/
structure Agree (h h' : Handshake) : Prop where
  readerIdentifier : h.readerIdentifier = h'.readerIdentifier
  endpointEphemeral : h.endpointEphemeral.x = h'.endpointEphemeral.x
  readerEphemeral : h.readerEphemeral.x = h'.readerEphemeral.x
  transactionIdentifier : h.transactionIdentifier = h'.transactionIdentifier

theorem authenticationData_inj {h h' : Handshake} {usage usage' : Usage} :
    h.authenticationData usage = h'.authenticationData usage' ↔ Agree h h' ∧ usage = usage' := by
  -- signed data is read back as the objects that it is made of
  constructor
  · intro hdata
    have hparse := Tlv.Object.parse_encodeAll (h.allEncodable_authenticationObjects usage)
    change Tlv.Object.parse (h.authenticationData usage) = _ at hparse
    rw [hdata, authenticationData,
      Tlv.Object.parse_encodeAll (h'.allEncodable_authenticationObjects usage')] at hparse
    simp only [authenticationObjects, Tlv.Object.readerIdentifier, Tlv.Object.endpointEphemeral,
      Tlv.Object.readerEphemeral, Tlv.Object.transactionIdentifier, Tlv.Object.ofValue, Except.ok.injEq,
      List.cons.injEq, Tlv.Object.primitive.injEq, true_and, and_true, Octets.toList_inj,
      ReaderIdentifier.encode_inj, PublicKey.xBytes_inj] at hparse
    obtain ⟨hreader, hendpoint, hephemeral, hname, husage⟩ := hparse
    exact ⟨⟨hreader.symm, hendpoint.symm, hephemeral.symm, hname.symm⟩, husage.symm⟩
  · rintro ⟨⟨hreader, hendpoint, hephemeral, hname⟩, rfl⟩
    rw [authenticationData, authenticationData, authenticationObjects, authenticationObjects, hreader, hname,
      PublicKey.xBytes_inj.mpr hendpoint, PublicKey.xBytes_inj.mpr hephemeral]

end Handshake

/-- The salt of a fast transaction, the info of a standard one and the data that a side signs are the same for two
handshakes exactly when all that goes into them is. -/
theorem transcripts_injective :
    (∀ d d' : FastDerivation, d.salt = d'.salt ↔ FastDerivation.Agree d d') ∧
    (∀ (d d' : StandardDerivation) (l l' : KeyLifetime),
      d.info l = d'.info l' ↔ l = l' ∧ StandardDerivation.Agree d d') ∧
    (∀ d d' : StandardDerivation, d.info .volatile ≠ d'.info .persistent) ∧
    (∀ (h : Handshake) (usage : Usage), h.authenticationData? usage = .ok (h.authenticationData usage)) ∧
    (∀ (h h' : Handshake) (usage usage' : Usage),
      h.authenticationData usage = h'.authenticationData usage' ↔ Handshake.Agree h h' ∧ usage = usage') ∧
    (∀ h h' : Handshake, h.authenticationData .reader ≠ h'.authenticationData .endpoint) := by
  refine ⟨fun d d' => FastDerivation.salt_inj, fun d d' l l' => StandardDerivation.info_inj, ?_,
    fun h usage => h.authenticationData?_eq usage, fun h h' usage usage' => Handshake.authenticationData_inj, ?_⟩
  · intro d d' hinfo
    obtain ⟨hlifetime, -⟩ := StandardDerivation.info_inj.mp hinfo
    cases hlifetime
  · intro h h' hdata
    obtain ⟨-, husage⟩ := Handshake.authenticationData_inj.mp hdata
    have hne : Usage.reader ≠ Usage.endpoint := by decide
    exact hne husage

end TapAccess
