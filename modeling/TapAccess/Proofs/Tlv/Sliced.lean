import TapAccess.Proofs.Tlv.Accepted

/-!
# Reading objects by their declared lengths

A decoder that knows nothing of the way in which sizes are counted here takes a length field at its word: it cuts out
as many bytes as the field declares and looks for the objects inside in these bytes alone (`readSliced`). It reads
an encoding as the objects that were written when every length that is declared is the number of bytes that follow
(`IsExact`, `decodeSliced_encode`).

A length is declared from the sizes that the objects inside count for, so it is exact when each of them is written in
as many bytes. Contents of 127 bytes are the only ones whose length field is longer than what is counted for it
(`lengthFieldSize_eq`).
-/

namespace TapAccess.Tlv.Object

/-! ### What is declared and what is written -/

/-- The length that is declared for the contents. -/
def declaredLength : Object → Nat
  | primitive _ value _ => value.length
  | constructed _ children _ => totalSize children

/-- The bytes behind the length field. -/
def contents : Object → Bytes
  | primitive _ value _ => value
  | constructed _ children _ => encodeAll children

/-- The object says how many bytes of contents there are. -/
def IsExact (o : Object) : Prop := o.declaredLength = o.contents.length

mutual

/-- The object itself and all objects inside it, the outer ones first. -/
def subobjects : Object → List Object
  | primitive tag value h => [primitive tag value h]
  | constructed tag children h => constructed tag children h :: allSubobjects children

def allSubobjects : List Object → List Object
  | [] => []
  | object :: objects => subobjects object ++ allSubobjects objects

end

theorem encode_eq (o : Object) : encode o = o.tag.bytes ++ lengthField o.declaredLength ++ o.contents := by
  cases o <;> rw [encode] <;> rfl

theorem size_eq (o : Object) : size o = enclosingSize o.tag.bytes.length o.declaredLength := by
  cases o <;> rw [size] <;> rfl

theorem self_mem_subobjects (o : Object) : o ∈ subobjects o := by
  cases o <;> rw [subobjects] <;> exact List.mem_cons_self

theorem declaredLength_lt {o : Object} (hencodable : Encodable o) : o.declaredLength < 2 ^ 32 := by
  cases o with
  | primitive tag value _ => exact hencodable
  | constructed tag children _ => exact hencodable.1

theorem encodable_of_contents {o : Object} (hcontents : o.contents.length < 2 ^ 32) : Encodable o := by
  cases o with
  | primitive tag value _ => exact hcontents
  | constructed tag children _ =>
    exact ⟨Nat.lt_of_le_of_lt (totalSize_le_length children) hcontents, allEncodable_of_length children hcontents⟩

/-! ### Reading -/

theorem isConstructed_eq_false {tag : Tag} (hprimitive : ¬ tag.isConstructed = true) : tag.isConstructed = false :=
  Bool.eq_false_iff.mpr hprimitive

mutual

/-- Reads one object. The contents are cut out before anything is looked for in them. -/
def readSliced : (depth : Nat) → Bytes → Except TlvError (Object × Bytes)
  | 0, _ => .error .truncatedInput
  | depth + 1, input =>
    match Tag.read input with
    | .error e => .error e
    | .ok (tag, input) =>
      match readLength input with
      | .error e => .error e
      | .ok (length, input) =>
        let slice := input.take length
        if slice.length < length then .error .truncatedInput
        else if h : tag.isConstructed = true then
          match readSlices depth slice with
          | .error e => .error e
          | .ok children => .ok (.constructed tag children h, input.drop length)
        else .ok (.primitive tag slice (isConstructed_eq_false h), input.drop length)

/-- Reads objects until the bytes that were cut out end. -/
def readSlices : (depth : Nat) → Bytes → Except TlvError (List Object)
  | 0, _ => .error .truncatedInput
  | depth + 1, input =>
    if input = [] then .ok []
    else
      match readSliced depth input with
      | .error e => .error e
      | .ok (object, rest) =>
        match readSlices depth rest with
        | .error e => .error e
        | .ok objects => .ok (object :: objects)

end

-- every object has two bytes or more, so this depth is never used up
def decodeSliced (input : Bytes) : Except TlvError (List Object) := readSlices (2 * input.length + 2) input

theorem readSliced_encode_and (depth : Nat) :
    (∀ (o : Object) (rest : Bytes), Encodable o → (∀ p ∈ subobjects o, IsExact p) → 2 * (encode o).length ≤ depth →
      readSliced depth (encode o ++ rest) = .ok (o, rest)) ∧
    (∀ objects : List Object, AllEncodable objects → (∀ p ∈ allSubobjects objects, IsExact p) →
      2 * (encodeAll objects).length + 1 ≤ depth → readSlices depth (encodeAll objects) = .ok objects) := by
  -- both readers at once, by induction on the depth, as each calls the other
  induction depth with
  | zero =>
    refine ⟨fun o rest _ _ hdepth => ?_, fun objects _ _ hdepth => ?_⟩
    · have := length_encode_pos o
      omega
    · omega
  | succ depth ih =>
    obtain ⟨ihread, ihslices⟩ := ih
    refine ⟨fun o rest hencodable hexact hdepth => ?_, fun objects hencodable hexact hdepth => ?_⟩
    · have hself : o.declaredLength = o.contents.length := hexact o (self_mem_subobjects o)
      have hfits : o.contents.length < 2 ^ 32 := hself ▸ declaredLength_lt hencodable
      -- the tag and the length field pay for the two steps down to the children
      have htag := o.tag.length_pos
      have hfield := lengthField_pos o.declaredLength
      rw [encode_eq, List.length_append, List.length_append] at hdepth
      rw [encode_eq, hself, List.append_assoc, List.append_assoc, readSliced, Tag.read_bytes]
      dsimp only
      rw [readLength_lengthField hfits]
      dsimp only
      rw [List.take_left' rfl, List.drop_left' rfl, if_neg (Nat.lt_irrefl _)]
      cases o with
      | primitive tag value hprimitive =>
        have hno : ¬ tag.isConstructed = true := by rw [hprimitive]; exact Bool.false_ne_true
        exact dif_neg hno
      | constructed tag children hconstructed =>
        rw [Encodable] at hencodable
        have hinside : ∀ p ∈ allSubobjects children, IsExact p := by
          intro p hp
          apply hexact
          rw [subobjects]
          exact List.mem_cons_of_mem _ hp
        have hchildren : readSlices depth (encodeAll children) = .ok children :=
          ihslices children hencodable.2 hinside (by simp only [contents] at hdepth; omega)
        rw [dif_pos (show (constructed tag children hconstructed).tag.isConstructed = true from hconstructed)]
        rw [show (constructed tag children hconstructed).contents = encodeAll children from rfl, hchildren]
        rfl
    · cases objects with
      | nil =>
        rw [encodeAll, readSlices, if_pos rfl]
      | cons object objects =>
        rw [AllEncodable] at hencodable
        rw [encodeAll, List.length_append] at hdepth
        rw [allSubobjects, List.forall_mem_append] at hexact
        have hlength := length_encode_pos object
        have hsome : encode object ++ encodeAll objects ≠ [] := by
          apply List.ne_nil_of_length_pos
          rw [List.length_append]
          omega
        rw [encodeAll, readSlices, if_neg hsome, ihread object _ hencodable.1 hexact.1 (by omega)]
        dsimp only
        rw [ihslices objects hencodable.2 hexact.2 (by omega)]

mutual

theorem encodable_of_mem_subobjects : ∀ o : Object, Encodable o → ∀ p ∈ subobjects o, Encodable p
  | primitive tag value h, hencodable, p, hp => by
    rw [subobjects, List.mem_singleton] at hp
    rw [hp]
    exact hencodable
  | constructed tag children h, hencodable, p, hp => by
    rw [subobjects, List.mem_cons] at hp
    rcases hp with rfl | hp
    · exact hencodable
    · rw [Encodable] at hencodable
      exact encodable_of_mem_allSubobjects children hencodable.2 p hp

theorem encodable_of_mem_allSubobjects : ∀ objects : List Object, AllEncodable objects →
    ∀ p ∈ allSubobjects objects, Encodable p
  | [], _, p, hp => by
    rw [allSubobjects] at hp
    cases hp
  | object :: objects, hencodable, p, hp => by
    rw [AllEncodable] at hencodable
    rw [allSubobjects, List.mem_append] at hp
    rcases hp with hp | hp
    · exact encodable_of_mem_subobjects object hencodable.1 p hp
    · exact encodable_of_mem_allSubobjects objects hencodable.2 p hp

end

theorem encode_of_isExact {o : Object} (hencodable : Encodable o) (hexact : IsExact o) :
    encode o = o.tag.bytes ++ lengthField o.contents.length ++ o.contents ∧
      readLength (lengthField o.contents.length ++ o.contents) = .ok (o.contents.length, o.contents) := by
  unfold IsExact at hexact
  refine ⟨hexact ▸ encode_eq o, readLength_lengthField ?_ _⟩
  rw [← hexact]
  exact declaredLength_lt hencodable

theorem decodeSliced_encode {o : Object} (hencodable : Encodable o) (hexact : ∀ p ∈ subobjects o, IsExact p) :
    decodeSliced (encode o) = .ok [o] := by
  have hsingle : encode o = encodeAll [o] := by rw [encodeAll, encodeAll, List.append_nil]
  rw [decodeSliced, hsingle]
  refine (readSliced_encode_and _).2 [o] ?_ ?_ (Nat.le_succ _)
  · rw [AllEncodable, AllEncodable]
    exact ⟨hencodable, trivial⟩
  · rwa [allSubobjects, allSubobjects, List.append_nil]

/-- With 127 bytes inside, the length of the outer object is one too small, and the last byte is cut off. -/
example : (decodeSliced (encode (ofChildren 0xE1 [ofValue 0xC3 (List.replicate 127 0x33)]))).toBool = false := by
  decide +kernel

/-! ### When a length is exact -/

/-- Contents of 127 bytes are the only ones whose length field is not as long as what is counted for it. -/
theorem lengthFieldSize_eq {length : Nat} (hlength : length < 2 ^ 32) (hodd : length ≠ 0x7F) :
    lengthFieldSize length = (lengthField length).length := by
  refine Nat.le_antisymm (lengthFieldSize_le length) ?_
  by_cases hshort : length < 0x7F
  · rw [lengthField, if_pos hshort, lengthFieldSize, if_pos (by omega)]
    exact Nat.le_refl 1
  · have hfield : (lengthField length).length = digitCount length + 1 := by
      rw [lengthField, if_neg hshort, List.length_cons, Bytes.length_ofNat]
    have hdigits (count : Nat) (hcount : 0 < count) (hfew : length < 256 ^ count) : digitCount length ≤ count :=
      digitCount_le hfew hcount
    rw [hfield, lengthFieldSize, if_neg (by omega)]
    split
    case isTrue hone => exact Nat.succ_le_succ (hdigits 1 (by decide) hone)
    case isFalse =>
      split
      case isTrue htwo => exact Nat.succ_le_succ (hdigits 2 (by decide) htwo)
      case isFalse =>
        split
        case isTrue hthree => exact Nat.succ_le_succ (hdigits 3 (by decide) hthree)
        case isFalse => exact Nat.succ_le_succ (hdigits 4 (by decide) hlength)

theorem size_eq_length {o : Object} (hexact : IsExact o) (hfits : o.declaredLength < 2 ^ 32)
    (hodd : o.declaredLength ≠ 0x7F) : size o = (encode o).length := by
  unfold IsExact at hexact
  rw [size_eq, encode_eq, List.length_append, List.length_append, ← hexact, enclosingSize,
    lengthFieldSize_eq hfits hodd]

theorem isExact_primitive {o : Object} (hprimitive : o.tag.isConstructed = false) : IsExact o := by
  cases o with
  | primitive tag value _ => rfl
  | constructed tag children hconstructed =>
    rw [show tag.isConstructed = false from hprimitive] at hconstructed
    cases hconstructed

theorem totalSize_eq_length {objects : List Object} (hsizes : ∀ o ∈ objects, size o = (encode o).length) :
    totalSize objects = (encodeAll objects).length := by
  induction objects with
  | nil => rfl
  | cons object objects ih =>
    rw [List.forall_mem_cons] at hsizes
    rw [totalSize, length_encodeAll_cons, hsizes.1, ih hsizes.2]

end TapAccess.Tlv.Object
