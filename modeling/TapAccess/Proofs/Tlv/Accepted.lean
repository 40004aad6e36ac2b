import TapAccess.Proofs.Tlv.Lookup

/-!
# Reading, writing and reading again

`decode_undoes_encode`: objects that were put together are read back from their encoding, and so are objects that
were read, from whatever bytes they came. Those bytes need not be the encoding: a tag may be long, and a length may
have been given in more digits than it needs.

What the reader accepts has lengths of four digits at most, and the children of a constructed object have the size
that was announced for them (`ReadsChildren.allEncodable`). So everything that is accepted can be written
(`allEncodable_of_parse`).
-/

namespace TapAccess.Tlv.Object

/-! ### What was read can be written -/

mutual

theorem Reads.encodable : ∀ {input rest : Bytes} {o : Object}, Reads input (.ok (o, rest)) → Encodable o
  | _, _, _, .primitive _ hlength _ => lt_of_readLength hlength
  | _, _, _, .constructed _ hlength _ hchildren => by
    obtain ⟨hencodable, hsize⟩ := hchildren.allEncodable
    rw [Encodable, hsize]
    exact ⟨lt_of_readLength hlength, hencodable⟩

/-- The children have the size that was announced for them. -/
theorem ReadsChildren.allEncodable : ∀ {length : Nat} {input rest : Bytes} {children : List Object},
    ReadsChildren length input (.ok (children, rest)) → AllEncodable children ∧ totalSize children = length
  | _, _, _, _, .complete => ⟨trivial, rfl⟩
  | _, _, _, _, .next _ hchild hfits hmore => by
    obtain ⟨hencodable, hsize⟩ := hmore.allEncodable
    refine ⟨⟨hchild.encodable, hencodable⟩, ?_⟩
    rw [totalSize, hsize, Nat.add_sub_cancel' hfits]

end

theorem ReadsAll.allEncodable {input : Bytes} {objects : List Object} (hall : ReadsAll input (.ok objects)) :
    AllEncodable objects := by
  induction objects generalizing input with
  | nil => trivial
  | cons object objects ih =>
    obtain ⟨after, -, hobject, hmore⟩ := readsAll_cons_iff.mp hall
    exact ⟨hobject.encodable, ih hmore⟩

theorem allEncodable_of_parse {input : Bytes} {objects : List Object} (hparse : parse input = .ok objects) :
    AllEncodable objects :=
  (readsAll_iff_parse.mpr hparse).allEncodable

/-! ### What was put together can be written -/

/-- Objects that are put together from tags of one byte, with contents that a length field of four digits can
announce. -/
inductive Built : Object → Prop
  | primitive {tag : UInt8} {value : Bytes} {o : Object} (hmade : primitive? tag value = .ok o)
      (hlength : value.length < 2 ^ 32) : Built o
  | constructed {tag : UInt8} {children : List Object} {o : Object} (hmade : constructed? tag children = .ok o)
      (hchildren : ∀ child ∈ children, Built child) (hsize : totalSize children < 2 ^ 32) : Built o

theorem eq_of_primitive? {tag : UInt8} {value : Bytes} {o : Object} (hmade : primitive? tag value = .ok o) :
    ∃ tag isPrimitive, o = .primitive tag value isPrimitive := by
  unfold primitive? at hmade
  cases htag : Tag.ofByte? tag with
  | none =>
    rw [htag] at hmade
    cases hmade
  | some t =>
    rw [htag] at hmade
    dsimp only at hmade
    split at hmade
    · cases hmade
      exact ⟨t, _, rfl⟩
    · cases hmade

theorem eq_of_constructed? {tag : UInt8} {children : List Object} {o : Object}
    (hmade : constructed? tag children = .ok o) :
    ∃ tag isConstructed, o = .constructed tag children isConstructed := by
  unfold constructed? at hmade
  cases htag : Tag.ofByte? tag with
  | none =>
    rw [htag] at hmade
    cases hmade
  | some t =>
    rw [htag] at hmade
    dsimp only at hmade
    split at hmade
    · cases hmade
      exact ⟨t, _, rfl⟩
    · cases hmade

theorem Built.encodable {o : Object} (hbuilt : Built o) : Encodable o := by
  induction hbuilt with
  | primitive hmade hlength =>
    obtain ⟨_, _, rfl⟩ := eq_of_primitive? hmade
    exact hlength
  | constructed hmade _ hsize ih =>
    obtain ⟨_, _, rfl⟩ := eq_of_constructed? hmade
    exact ⟨hsize, allEncodable_iff.mpr ih⟩

/-! ### Both ways -/

/-- Objects come back from their encoding, those that were put together and those that were read. -/
theorem decode_undoes_encode :
    (∀ objects : List Object, (∀ o ∈ objects, Built o) → parse (encodeAll objects) = .ok objects) ∧
    (∀ (input : Bytes) (objects : List Object), parse input = .ok objects →
      parse (encodeAll objects) = .ok objects) := by
  refine ⟨fun objects hbuilt => ?_, fun input objects hparse => ?_⟩
  · exact parse_encodeAll (allEncodable_iff.mpr fun o hmem => (hbuilt o hmem).encodable)
  · exact parse_encodeAll (allEncodable_of_parse hparse)

/-- An object of 127 bytes inside two others. -/
def nested : Object := ofChildren 0xE1 [ofChildren 0xE2 [ofValue 0xC3 (List.replicate 127 0x33)]]

theorem built_nested : Built nested := by
  have hvalue : Built (ofValue 0xC3 (List.replicate 127 0x33)) :=
    .primitive (primitive?_eq_ok 0xC3 _ (by decide) (by decide)) (by decide +kernel)
  have hinner : Built (ofChildren 0xE2 [ofValue 0xC3 (List.replicate 127 0x33)]) :=
    .constructed (constructed?_eq_ok 0xE2 _ (by decide) (by decide)) (List.forall_mem_singleton.mpr hvalue)
      (by decide +kernel)
  exact .constructed (constructed?_eq_ok 0xE1 _ (by decide) (by decide)) (List.forall_mem_singleton.mpr hinner)
    (by decide +kernel)

/-- The object of 127 bytes comes back from inside the others. Of the bytes with a long tag and a length of two digits
fewer are written, and they are read as the same object. -/
theorem decode_undoes_encode_nested :
    Built nested ∧ parse (encodeAll [nested]) = .ok [nested] ∧
    ∃ objects, parse [0x9F, 0x81, 0x01, 0x82, 0x00, 0x01, 0xAA] = .ok objects ∧
      encodeAll objects = [0x9F, 0x81, 0x01, 0x01, 0xAA] ∧ parse (encodeAll objects) = .ok objects :=
  ⟨built_nested, decode_undoes_encode.1 [nested] (List.forall_mem_singleton.mpr built_nested),
    [.primitive ⟨[0x9F, 0x81, 0x01], by decide⟩ [0xAA] (by decide)], rfl, rfl,
    decode_undoes_encode.2 [0x9F, 0x81, 0x01, 0x82, 0x00, 0x01, 0xAA] _ rfl⟩

end TapAccess.Tlv.Object
