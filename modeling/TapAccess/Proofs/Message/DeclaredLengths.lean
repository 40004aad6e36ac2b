import TapAccess.Proofs.Message.Responses
import TapAccess.Proofs.Tlv.Sliced

/-!
# The lengths in the answer to SELECT

The answer has objects at three levels: around everything the one that stands for the applet, in it the name of the
applet and the details, and in the details the type and the versions. The list of versions may be of any length, and
with it the lengths at every level grow. Only contents of 127 bytes would make the length around them too small. The
versions have an even number of bytes, and as long as one byte is enough for a length field, so have the details
(`declaredLength_details_ne`). So every length is the number of bytes that follow it
(`SelectResponse.lengths_exact`).
-/

namespace TapAccess.SelectResponse

open Tlv Tlv.Object

/-- The last of the objects inside the answer, which has the type and the versions. -/
def details (versions : Versions) : Tlv.Object :=
  (ofVersions versions).toObject.children.getLastD (ofVersions versions).toObject

theorem details_eq (versions : Versions) :
    details versions = .ofChildren 0xA5 [.ofValue 0x80 [0x00, 0x00], .ofValue 0x81 versions.encode] := rfl

theorem subobjects_ofVersions (versions : Versions) :
    (ofVersions versions).toObject.subobjects =
      [(ofVersions versions).toObject, .ofValue 0x84 SelectCommand.accessAid, details versions,
        .ofValue 0x80 [0x00, 0x00], .ofValue 0x81 versions.encode] := rfl

theorem declaredLength_details (versions : Versions) :
    (details versions).declaredLength =
      4 + (1 + lengthFieldSize versions.encode.length + versions.encode.length) := rfl

theorem declaredLength_details_ne (versions : Versions) : (details versions).declaredLength ≠ 0x7F := by
  -- up to 126 bytes of versions the details have six bytes more, which is an even number; from 128 on they have more
  -- than 128
  have hversions := versions.length_encode
  rw [declaredLength_details]
  by_cases hshort : versions.encode.length < 0x80
  · rw [lengthFieldSize, if_pos hshort]
    omega
  · omega

variable {versions : Versions}

theorem size_versions (hfits : versions.encode.length < 2 ^ 32) :
    size (.ofValue 0x81 versions.encode) = (encode (.ofValue 0x81 versions.encode)).length := by
  have hversions := versions.length_encode
  refine size_eq_length (isExact_primitive isConstructed_ofValue) hfits ?_
  show versions.encode.length ≠ 0x7F
  omega

theorem isExact_details (hfits : versions.encode.length < 2 ^ 32) : IsExact (details versions) := by
  have htype : size (.ofValue 0x80 [0x00, 0x00]) = (encode (.ofValue 0x80 [0x00, 0x00])).length := by decide
  rw [details_eq]
  refine totalSize_eq_length ?_
  simp only [List.forall_mem_cons]
  exact ⟨htype, size_versions hfits, List.forall_mem_nil _⟩

theorem isExact_ofVersions (hversions : versions.encode.length < 2 ^ 32)
    (hdetails : (details versions).declaredLength < 2 ^ 32) : IsExact (ofVersions versions).toObject := by
  have hname : size (.ofValue 0x84 SelectCommand.accessAid) =
      (encode (.ofValue 0x84 SelectCommand.accessAid)).length := by decide
  have hsize := size_eq_length (isExact_details hversions) hdetails (declaredLength_details_ne versions)
  refine totalSize_eq_length ?_
  simp only [List.forall_mem_cons]
  exact ⟨hname, hsize, List.forall_mem_nil _⟩

theorem isExact_subobjects (hversions : versions.encode.length < 2 ^ 32)
    (hdetails : (details versions).declaredLength < 2 ^ 32) :
    ∀ o ∈ (ofVersions versions).toObject.subobjects, IsExact o := by
  simp only [subobjects_ofVersions, List.forall_mem_cons]
  exact ⟨isExact_ofVersions hversions hdetails, isExact_primitive isConstructed_ofValue, isExact_details hversions,
    isExact_primitive isConstructed_ofValue, isExact_primitive isConstructed_ofValue, List.forall_mem_nil _⟩

/-- However many versions there are, as long as a length of four bytes is enough for what they come to, every length in
the answer to SELECT is the number of bytes that follow it, at all three levels. So the answer is read as what it was
made of also by a decoder that cuts it up by these lengths. -/
theorem lengths_exact (versions : Versions) (hfits : (ofVersions versions).toObject.contents.length < 2 ^ 32) :
    (ofVersions versions).toObject.subobjects.map (·.tag.bytes) = [[0x6F], [0x84], [0xA5], [0x80], [0x81]] ∧
    (∀ o ∈ (ofVersions versions).toObject.subobjects,
      encode o = o.tag.bytes ++ lengthField o.contents.length ++ o.contents ∧
        readLength (lengthField o.contents.length ++ o.contents) = .ok (o.contents.length, o.contents)) ∧
    decodeSliced (ofVersions versions).toResponse.payload = .ok [(ofVersions versions).toObject] ∧
    parse (ofVersions versions).toResponse.payload = .ok [(ofVersions versions).toObject] := by
  have hencodable := encodable_of_contents hfits
  have hinside := encodable_of_mem_subobjects _ hencodable
  rw [subobjects_ofVersions] at hinside
  simp only [List.forall_mem_cons] at hinside
  obtain ⟨-, -, hdetails, -, hversions, -⟩ := hinside
  have hexact := isExact_subobjects (encodable_ofValue_iff.mp hversions) (declaredLength_lt hdetails)
  exact ⟨rfl, fun o ho => encode_of_isExact (encodable_of_mem_subobjects _ hencodable o ho) (hexact o ho),
    decodeSliced_encode hencodable hexact, parse_encode hencodable⟩

/-- With 60 versions the details have 126 bytes, with 61 they have 128. -/
theorem lengths_exact_around_127 :
    (details ⟨.replicate 60 0x0100⟩).contents.length = 126 ∧
    (details ⟨.replicate 61 0x0100⟩).contents.length = 128 ∧
    decodeSliced (ofVersions ⟨.replicate 60 0x0100⟩).toResponse.payload =
      .ok [(ofVersions ⟨.replicate 60 0x0100⟩).toObject] ∧
    decodeSliced (ofVersions ⟨.replicate 61 0x0100⟩).toResponse.payload =
      .ok [(ofVersions ⟨.replicate 61 0x0100⟩).toObject] :=
  ⟨by decide +kernel, by decide +kernel, (lengths_exact ⟨.replicate 60 0x0100⟩ (by decide +kernel)).2.2.1,
    (lengths_exact ⟨.replicate 61 0x0100⟩ (by decide +kernel)).2.2.1⟩

end TapAccess.SelectResponse
