import TapAccess.Proofs.Except
import TapAccess.Proofs.Tlv.Runs

/-!
# Fields that were written

A message is a list of objects with a value each. What was written into an object is what is taken out of it again,
and whatever is short enough to be written has lengths that can be read (`allEncodable_of_length`).
-/

namespace TapAccess.Tlv.Object

/-! ### Making an object -/

theorem primitive?_eq_ok (tag : UInt8) (value : Bytes) (isTag : IsTag [tag] = true)
    (isPrimitive : (Tag.ofByte tag isTag).isConstructed = false) :
    primitive? tag value = .ok (ofValue tag value isTag isPrimitive) := by
  have htag : Tag.ofByte? tag = some (Tag.ofByte tag isTag) := dif_pos isTag
  rw [primitive?, htag]
  exact dif_pos isPrimitive

theorem constructed?_eq_ok (tag : UInt8) (children : List Object) (isTag : IsTag [tag] = true)
    (isConstructed : (Tag.ofByte tag isTag).isConstructed = true) :
    constructed? tag children = .ok (ofChildren tag children isTag isConstructed) := by
  have htag : Tag.ofByte? tag = some (Tag.ofByte tag isTag) := dif_pos isTag
  rw [constructed?, htag]
  exact dif_pos isConstructed

/-- Objects with the given tags and values, the tags looked at one by one. -/
def ofFields? (fields : List (UInt8 × Bytes)) : Except TlvError (List Object) :=
  fields.mapM fun field => primitive? field.1 field.2

theorem ofFields?_nil : ofFields? [] = .ok [] := rfl

theorem ofFields?_cons {tag : UInt8} {value : Bytes} {fields : List (UInt8 × Bytes)} {objects : List Object}
    {isTag : IsTag [tag] = true} {isPrimitive : (Tag.ofByte tag isTag).isConstructed = false}
    (hfields : ofFields? fields = .ok objects) :
    ofFields? ((tag, value) :: fields) = .ok (ofValue tag value isTag isPrimitive :: objects) := by
  rw [ofFields?, List.mapM_cons, ← ofFields?, primitive?_eq_ok tag value isTag isPrimitive, hfields]
  rfl

theorem ofFields?_optional {α : Type} {tag : UInt8} {field : Option α} {write : α → Bytes}
    {isTag : IsTag [tag] = true} {isPrimitive : (Tag.ofByte tag isTag).isConstructed = false} :
    ofFields? (field.map fun a => (tag, write a)).toList =
      .ok (field.map fun a => ofValue tag (write a) isTag isPrimitive).toList := by
  cases field with
  | none => exact ofFields?_nil
  | some a => exact ofFields?_cons ofFields?_nil

theorem ofFields?_append {first last : List (UInt8 × Bytes)} {before after : List Object}
    (hfirst : ofFields? first = .ok before) (hlast : ofFields? last = .ok after) :
    ofFields? (first ++ last) = .ok (before ++ after) := by
  rw [ofFields?, List.mapM_append, ← ofFields?, ← ofFields?, hfirst, hlast]
  rfl

/-! ### Taking a value -/

section

variable {tag : UInt8} {value : Bytes} {isTag : IsTag [tag] = true}
  {isPrimitive : (Tag.ofByte tag isTag).isConstructed = false}

theorem isConstructed_ofValue : (ofValue tag value isTag isPrimitive).tag.isConstructed = false := isPrimitive

@[simp] theorem value_ofValue : (ofValue tag value isTag isPrimitive).value = .ok value := rfl

@[simp] theorem firstByte_ofValue {first : UInt8} (field : String) :
    (ofValue tag [first] isTag isPrimitive).firstByte field = .ok first := rfl

@[simp] theorem octets_ofValue {n : Nat} {a : Octets n} (field : String) :
    (ofValue tag a.toList isTag isPrimitive).octets n field = .ok a := by
  simp [octets]

theorem encodable_ofValue_iff : Encodable (ofValue tag value isTag isPrimitive) ↔ value.length < 2 ^ 32 := by
  rw [ofValue, Encodable]

end

/-! ### Lengths -/

theorem length_encode_ofValue {tag : UInt8} {value : Bytes} {isTag : IsTag [tag] = true}
    {isPrimitive : (Tag.ofByte tag isTag).isConstructed = false} (hshort : value.length < 0x7F) :
    (encode (ofValue tag value isTag isPrimitive)).length = value.length + 2 := by
  rw [ofValue, encode, lengthField, if_pos hshort]
  simp only [Tag.ofByte, List.length_append, List.length_cons, List.length_nil]
  omega

theorem length_encode_ofValue_eq {tag : UInt8} {value : Bytes} {isTag : IsTag [tag] = true}
    {isPrimitive : (Tag.ofByte tag isTag).isConstructed = false} :
    (encode (ofValue tag value isTag isPrimitive)).length =
      1 + (lengthField value.length).length + value.length := by
  rw [ofValue, encode, List.length_append, List.length_append]
  rfl

theorem length_encodeAll_cons (object : Object) (objects : List Object) :
    (encodeAll (object :: objects)).length = (encode object).length + (encodeAll objects).length := by
  rw [encodeAll, List.length_append]

theorem length_encode_le {o : Object} (hprimitive : o.tag.isConstructed = false) (hencodable : Encodable o) :
    (encode o).length ≤ 2 ^ 32 + 8 := by
  cases o with
  | primitive tag value _ =>
    rw [Encodable] at hencodable
    have htag := tag.length_le
    have hdigits : digitCount value.length ≤ 4 := digitCount_le (by simpa using hencodable) (by decide)
    have hfield : (lengthField value.length).length ≤ 5 := by
      unfold lengthField
      split
      · simp
      · rw [List.length_cons, Bytes.length_ofNat]
        omega
    rw [encode, List.length_append, List.length_append]
    omega
  | constructed tag children hconstructed =>
    rw [show tag.isConstructed = false from hprimitive] at hconstructed
    cases hconstructed

theorem length_encodeAll_le {objects : List Object} (hprimitive : ∀ o ∈ objects, o.tag.isConstructed = false)
    (hencodable : AllEncodable objects) : (encodeAll objects).length ≤ objects.length * (2 ^ 32 + 8) := by
  induction objects with
  | nil =>
    rw [encodeAll]
    exact Nat.zero_le _
  | cons object objects ih =>
    rw [AllEncodable] at hencodable
    rw [List.forall_mem_cons] at hprimitive
    have hfirst := length_encode_le hprimitive.1 hencodable.1
    have hrest := ih hprimitive.2 hencodable.2
    rw [length_encodeAll_cons, List.length_cons]
    omega

theorem lengthFieldSize_le (length : Nat) : lengthFieldSize length ≤ (lengthField length).length := by
  have hdigits (count : Nat) (hlow : 256 ^ count ≤ length) : count + 1 ≤ digitCount length := by
    have hpos : length ≠ 0 := by
      have := Nat.pow_pos (n := count) (show 0 < 256 by decide)
      omega
    have hlog : 8 * count ≤ length.log2 := by
      rw [Nat.le_log2 hpos, Bytes.pow_256]
      exact hlow
    unfold digitCount
    omega
  by_cases hshort : length < 0x7F
  · rw [lengthFieldSize, if_pos (by omega)]
    exact lengthField_pos length
  · have hlength : (lengthField length).length = digitCount length + 1 := by
      rw [lengthField, if_neg hshort, List.length_cons, Bytes.length_ofNat]
    have hone : 1 ≤ digitCount length := hdigits 0 (by omega)
    rw [hlength]
    unfold lengthFieldSize
    split
    · omega
    · split
      · omega
      · split
        · have htwo := hdigits 1 (by omega)
          omega
        · split
          · have hthree := hdigits 2 (by omega)
            omega
          · have hfour := hdigits 3 (by omega)
            omega

theorem lengthFieldSize_le_five (length : Nat) : lengthFieldSize length ≤ 5 := by
  unfold lengthFieldSize
  split
  · omega
  · split
    · omega
    · split
      · omega
      · split <;> omega

theorem enclosingSize_one_le (length : Nat) : enclosingSize 1 length ≤ length + 6 := by
  have hfield := lengthFieldSize_le_five length
  unfold enclosingSize
  omega

mutual

theorem size_le_length : ∀ o : Object, size o ≤ (encode o).length
  | primitive tag value _ => by
    have := lengthFieldSize_le value.length
    simp only [size, enclosingSize, encode, List.length_append]
    omega
  | constructed tag children _ => by
    have hfield := lengthFieldSize_le (totalSize children)
    have hchildren := totalSize_le_length children
    simp only [size, enclosingSize, encode, List.length_append]
    omega

theorem totalSize_le_length : ∀ objects : List Object, totalSize objects ≤ (encodeAll objects).length
  | [] => by simp [totalSize]
  | object :: objects => by
    have hfirst := size_le_length object
    have hrest := totalSize_le_length objects
    rw [totalSize, length_encodeAll_cons]
    omega

end

mutual

theorem encodable_of_length : ∀ o : Object, (encode o).length < 2 ^ 32 → Encodable o
  | primitive tag value _, hlength => by
    simp only [encode, List.length_append] at hlength
    rw [Encodable]
    omega
  | constructed tag children _, hlength => by
    simp only [encode, List.length_append] at hlength
    have hsize := totalSize_le_length children
    rw [Encodable]
    exact ⟨by omega, allEncodable_of_length children (by omega)⟩

theorem allEncodable_of_length : ∀ objects : List Object, (encodeAll objects).length < 2 ^ 32 →
    AllEncodable objects
  | [], _ => by rw [AllEncodable]; trivial
  | object :: objects, hlength => by
    rw [length_encodeAll_cons] at hlength
    rw [AllEncodable]
    exact ⟨encodable_of_length object (by omega), allEncodable_of_length objects (by omega)⟩

end

end TapAccess.Tlv.Object
