import TapAccess.Proofs.Tlv.Headers

/-!
# Runs of the reader

The reader is bounded in its depth, and when the bound is used up it says that the input is truncated. Here are the
rules of reading without any bound: one for each way in which an object is read (`Reads`), in which the children of a
constructed object are (`ReadsChildren`), and in which the objects of an input are, one after the other (`ReadsAll`).
A derivation from these rules is a run that ends. Every input has one run and no other, and the bounded reader comes
to the same as this run (`readsAll_iff`), so that the bound is never used up. No other proof opens the reader: what
it accepts and what it makes of an encoding (`parse_encodeAll`) is said of its runs.

Children are read from all that is left of the input. Still an object depends only on the bytes that it takes up
(`Reads.occupies`): a run that succeeds is a run on these bytes, whatever follows them.
-/

namespace TapAccess.Tlv.Object

/-! ### Rules -/

mutual

/-- An object is read off the front of the input, or the input is refused. -/
inductive Reads : Bytes → Except TlvError (Object × Bytes) → Prop
  | noTag {input : Bytes} {e : TlvError} (htag : Tag.read input = .error e) : Reads input (.error e)
  | noLength {input after : Bytes} {tag : Tag} {e : TlvError} (htag : Tag.read input = .ok (tag, after))
      (hlength : readLength after = .error e) : Reads input (.error e)
  | truncated {input after contents : Bytes} {tag : Tag} {length : Nat} (htag : Tag.read input = .ok (tag, after))
      (hlength : readLength after = .ok (length, contents)) (hprimitive : tag.isConstructed = false)
      (hshort : contents.length < length) : Reads input (.error .truncatedInput)
  | primitive {input after value rest : Bytes} {tag : Tag} (htag : Tag.read input = .ok (tag, after))
      (hlength : readLength after = .ok (value.length, value ++ rest)) (hprimitive : tag.isConstructed = false) :
      Reads input (.ok (.primitive tag value hprimitive, rest))
  | failedInside {input after contents : Bytes} {tag : Tag} {length : Nat} {e : TlvError}
      (htag : Tag.read input = .ok (tag, after)) (hlength : readLength after = .ok (length, contents))
      (hconstructed : tag.isConstructed = true) (hchildren : ReadsChildren length contents (.error e)) :
      Reads input (.error e)
  | constructed {input after contents rest : Bytes} {tag : Tag} {length : Nat} {children : List Object}
      (htag : Tag.read input = .ok (tag, after)) (hlength : readLength after = .ok (length, contents))
      (hconstructed : tag.isConstructed = true)
      (hchildren : ReadsChildren length contents (.ok (children, rest))) :
      Reads input (.ok (.constructed tag children hconstructed, rest))

/-- Children whose sizes add up to a length are read off the front of the input, or the input is refused. -/
inductive ReadsChildren : Nat → Bytes → Except TlvError (List Object × Bytes) → Prop
  | complete {input : Bytes} : ReadsChildren 0 input (.ok ([], input))
  | failed {length : Nat} {input : Bytes} {e : TlvError} (hsome : length ≠ 0) (hchild : Reads input (.error e)) :
      ReadsChildren length input (.error e)
  | tooLarge {length : Nat} {input after : Bytes} {child : Object} (hsome : length ≠ 0)
      (hchild : Reads input (.ok (child, after))) (hlarge : length < child.size) :
      ReadsChildren length input (.error .inconsistent)
  | failedLater {length : Nat} {input after : Bytes} {child : Object} {e : TlvError} (hsome : length ≠ 0)
      (hchild : Reads input (.ok (child, after))) (hfits : child.size ≤ length)
      (hmore : ReadsChildren (length - child.size) after (.error e)) : ReadsChildren length input (.error e)
  | next {length : Nat} {input after rest : Bytes} {child : Object} {children : List Object} (hsome : length ≠ 0)
      (hchild : Reads input (.ok (child, after))) (hfits : child.size ≤ length)
      (hmore : ReadsChildren (length - child.size) after (.ok (children, rest))) :
      ReadsChildren length input (.ok (child :: children, rest))

end

/-- Objects are read until the input ends, or the input is refused. -/
inductive ReadsAll : Bytes → Except TlvError (List Object) → Prop
  | complete : ReadsAll [] (.ok [])
  | failed {input : Bytes} {e : TlvError} (hsome : input ≠ []) (hobject : Reads input (.error e)) :
      ReadsAll input (.error e)
  | next {input after : Bytes} {o : Object} {outcome : Except TlvError (List Object)} (hsome : input ≠ [])
      (hobject : Reads input (.ok (o, after))) (hmore : ReadsAll after outcome) :
      ReadsAll input (outcome.map (o :: ·))

theorem readsAll_nil_iff {input : Bytes} : ReadsAll input (.ok []) ↔ input = [] := by
  constructor
  · intro hall
    generalize houtcome : Except.ok [] = outcome at hall
    cases hall with
    | complete => rfl
    | failed => cases houtcome
    | @next _ _ _ later => cases later <;> cases houtcome
  · rintro rfl
    exact .complete

theorem readsAll_cons_iff {input : Bytes} {o : Object} {more : List Object} :
    ReadsAll input (.ok (o :: more)) ↔
      ∃ after, input ≠ [] ∧ Reads input (.ok (o, after)) ∧ ReadsAll after (.ok more) := by
  constructor
  · intro hall
    generalize houtcome : Except.ok (o :: more) = outcome at hall
    cases hall with
    | complete => cases houtcome
    | failed => cases houtcome
    | @next _ after _ later hsome hobject hmore =>
      cases later with
      | error e => cases houtcome
      | ok later =>
        cases houtcome
        exact ⟨after, hsome, hobject, hmore⟩
  · rintro ⟨after, hsome, hobject, hmore⟩
    exact .next hsome hobject hmore

/-! ### What is taken off the front -/

/-- The bytes are read as the object, whatever follows them, and there are at least a tag and a length. -/
structure Occupies (used : Bytes) (o : Object) : Prop where
  two_le_length : 2 ≤ used.length
  reads : ∀ rest : Bytes, Reads (used ++ rest) (.ok (o, rest))

section

variable {input after rest contents : Bytes} {tag : Tag} {length : Nat}

theorem lengthField_of_read (hlength : readLength input = .ok (length, rest)) :
    ∃ field : Bytes, input = field ++ rest ∧ 0 < field.length ∧
      ∀ more : Bytes, readLength (field ++ more) = .ok (length, more) := by
  rcases readLength_cases hlength with ⟨first, hshort, rfl, rfl⟩ |
    ⟨first, digits, hlong, hcount, hfew, rfl, rfl⟩
  · refine ⟨[first], rfl, Nat.one_pos, fun more => ?_⟩
    rw [List.singleton_append, readLength, if_pos hshort]
  · refine ⟨first :: digits, rfl, Nat.succ_pos _, fun more => ?_⟩
    rw [List.cons_append, readLength, if_neg hlong]
    dsimp only
    rw [if_neg (by omega), List.take_left' hcount, List.drop_left' hcount, if_neg (by omega)]

theorem header_of_read (htag : Tag.read input = .ok (tag, after))
    (hlength : readLength after = .ok (length, contents)) :
    ∃ header : Bytes, input = header ++ contents ∧ 2 ≤ header.length ∧
      ∀ more : Bytes, ∃ behind, Tag.read (header ++ more) = .ok (tag, behind) ∧
        readLength behind = .ok (length, more) := by
  obtain ⟨field, rfl, hfield, hread⟩ := lengthField_of_read hlength
  have htagLength := tag.length_pos
  refine ⟨tag.bytes ++ field, ?_, ?_, fun more => ⟨field ++ more, ?_, hread more⟩⟩
  · rw [Tag.eq_of_read htag, List.append_assoc]
  · rw [List.length_append]
    omega
  · rw [List.append_assoc, Tag.read_bytes]

end

-- the induction is along the run: an object takes up its header and what its value or its children take up
mutual

/-- An object is read from the bytes that it takes up. -/
theorem Reads.occupies : ∀ {input rest : Bytes} {o : Object}, Reads input (.ok (o, rest)) →
    ∃ used, input = used ++ rest ∧ Occupies used o
  | _, rest, _, .primitive htag hlength hprimitive => by
    obtain ⟨header, rfl, hheader, hread⟩ := header_of_read htag hlength
    refine ⟨header ++ _, (List.append_assoc _ _ _).symm, ?_, fun more => ?_⟩
    · rw [List.length_append]
      omega
    · obtain ⟨behind, htag, hlength⟩ := hread (_ ++ more)
      rw [List.append_assoc]
      exact .primitive htag hlength hprimitive
  | _, rest, _, .constructed htag hlength hconstructed hchildren => by
    obtain ⟨header, rfl, hheader, hread⟩ := header_of_read htag hlength
    obtain ⟨inside, rfl, hinside⟩ := hchildren.inside
    refine ⟨header ++ inside, (List.append_assoc _ _ _).symm, ?_, fun more => ?_⟩
    · rw [List.length_append]
      omega
    · obtain ⟨behind, htag, hlength⟩ := hread (inside ++ more)
      rw [List.append_assoc]
      exact .constructed htag hlength hconstructed (hinside more)

theorem ReadsChildren.inside : ∀ {length : Nat} {input rest : Bytes} {children : List Object},
    ReadsChildren length input (.ok (children, rest)) →
      ∃ inside, input = inside ++ rest ∧ ∀ more, ReadsChildren length (inside ++ more) (.ok (children, more))
  | _, _, _, _, .complete => ⟨[], rfl, fun _ => .complete⟩
  | _, _, _, _, .next hsome hchild hfits hmore => by
    obtain ⟨used, rfl, hused⟩ := hchild.occupies
    obtain ⟨inside, rfl, hinside⟩ := hmore.inside
    refine ⟨used ++ inside, (List.append_assoc _ _ _).symm, fun more => ?_⟩
    rw [List.append_assoc]
    exact .next hsome (hused.reads _) hfits (hinside more)

end

theorem Reads.length_le {input rest : Bytes} {o : Object} (hread : Reads input (.ok (o, rest))) :
    rest.length + 2 ≤ input.length := by
  obtain ⟨used, rfl, hused⟩ := hread.occupies
  have := hused.two_le_length
  rw [List.length_append]
  omega

theorem length_le_of_header {input after contents : Bytes} {tag : Tag} {length : Nat}
    (htag : Tag.read input = .ok (tag, after)) (hlength : readLength after = .ok (length, contents)) :
    contents.length + 2 ≤ input.length := by
  obtain ⟨header, rfl, hheader, -⟩ := header_of_read htag hlength
  rw [List.length_append]
  omega

/-! ### Every input has a run -/

theorem exists_reads_of {input : Bytes}
    (hchildren : ∀ (length : Nat) (contents : Bytes), contents.length + 2 ≤ input.length →
      ∃ outcome, ReadsChildren length contents outcome) : ∃ outcome, Reads input outcome := by
  cases htag : Tag.read input with
  | error e => exact ⟨_, .noTag htag⟩
  | ok tagged =>
    cases hlength : readLength tagged.2 with
    | error e => exact ⟨_, .noLength htag hlength⟩
    | ok measured =>
      obtain ⟨length, contents⟩ := measured
      by_cases hconstructed : tagged.1.isConstructed = true
      · obtain ⟨outcome, hinside⟩ := hchildren length contents (length_le_of_header htag hlength)
        cases outcome with
        | error e => exact ⟨_, .failedInside htag hlength hconstructed hinside⟩
        | ok inside => exact ⟨_, .constructed htag hlength hconstructed hinside⟩
      · have hprimitive := Bool.eq_false_iff.mpr hconstructed
        by_cases hshort : contents.length < length
        · exact ⟨_, .truncated htag hlength hprimitive hshort⟩
        · have hvalue : (contents.take length).length = length := List.length_take_of_le (Nat.not_lt.mp hshort)
          have hcontents : readLength tagged.2 =
              .ok ((contents.take length).length, contents.take length ++ contents.drop length) := by
            rw [hvalue, List.take_append_drop, hlength]
          exact ⟨_, .primitive htag hcontents hprimitive⟩

theorem exists_readsChildren (length : Nat) (input : Bytes) : ∃ outcome, ReadsChildren length input outcome := by
  induction hn : input.length using Nat.strongRecOn generalizing length input with
  | _ n ih =>
    subst hn
    -- whatever is read next starts at least two bytes further on
    have hlater (length : Nat) (after : Bytes) (hafter : after.length + 2 ≤ input.length) :
        ∃ outcome, ReadsChildren length after outcome := ih after.length (by omega) length after rfl
    by_cases hsome : length = 0
    · subst hsome
      exact ⟨_, .complete⟩
    · obtain ⟨first, hchild⟩ := exists_reads_of hlater
      cases first with
      | error e => exact ⟨_, .failed hsome hchild⟩
      | ok first =>
        obtain ⟨child, after⟩ := first
        by_cases hlarge : length < child.size
        · exact ⟨_, .tooLarge hsome hchild hlarge⟩
        · have hfits := Nat.not_lt.mp hlarge
          obtain ⟨outcome, hmore⟩ := hlater (length - child.size) after hchild.length_le
          cases outcome with
          | error e => exact ⟨_, .failedLater hsome hchild hfits hmore⟩
          | ok more => exact ⟨_, .next hsome hchild hfits hmore⟩

theorem exists_reads (input : Bytes) : ∃ outcome, Reads input outcome :=
  exists_reads_of fun length contents _ => exists_readsChildren length contents

theorem exists_readsAll (input : Bytes) : ∃ outcome, ReadsAll input outcome := by
  induction hn : input.length using Nat.strongRecOn generalizing input with
  | _ n ih =>
    subst hn
    by_cases hsome : input = []
    · subst hsome
      exact ⟨_, .complete⟩
    · obtain ⟨first, hobject⟩ := exists_reads input
      cases first with
      | error e => exact ⟨_, .failed hsome hobject⟩
      | ok first =>
        have hafter := hobject.length_le
        obtain ⟨outcome, hmore⟩ := ih first.2.length (by omega) first.2 rfl
        exact ⟨_, .next hsome hobject hmore⟩

/-! ### The bounded reader follows the run -/

section

variable {input after contents : Bytes} {tag : Tag} {length depth : Nat}

theorem read_of_primitive (htag : Tag.read input = .ok (tag, after))
    (hlength : readLength after = .ok (length, contents)) (hprimitive : tag.isConstructed = false) :
    read (depth + 1) input =
      if (contents.take length).length < length then .error .truncatedInput
      else .ok (.primitive tag (contents.take length) hprimitive, contents.drop length) := by
  rw [read, htag]
  dsimp only
  rw [hlength]
  dsimp only
  rw [dif_neg (Bool.eq_false_iff.mp hprimitive)]

theorem read_of_constructed (htag : Tag.read input = .ok (tag, after))
    (hlength : readLength after = .ok (length, contents)) (hconstructed : tag.isConstructed = true) :
    read (depth + 1) input = (readChildren depth length [] contents).map fun inside =>
      (.constructed tag inside.1 hconstructed, inside.2) := by
  rw [read, htag]
  dsimp only
  rw [hlength]
  dsimp only
  rw [dif_pos hconstructed]
  cases readChildren depth length [] contents <;> rfl

end

mutual

/-- A depth beyond the length of the input is enough. -/
theorem Reads.read_eq : ∀ {input : Bytes} {outcome : Except TlvError (Object × Bytes)}, Reads input outcome →
    ∀ {depth : Nat}, input.length ≤ depth → read (depth + 1) input = outcome
  | _, _, .noTag htag, _, _ => by rw [read, htag]
  | _, _, .noLength htag hlength, _, _ => by
    rw [read, htag]
    dsimp only
    rw [hlength]
  | _, _, .truncated htag hlength hprimitive hshort, _, _ => by
    rw [read_of_primitive htag hlength hprimitive, List.take_of_length_le (Nat.le_of_lt hshort), if_pos hshort]
  | _, _, .primitive htag hlength hprimitive, _, _ => by
    rw [read_of_primitive htag hlength hprimitive, List.take_left' rfl, List.drop_left' rfl,
      if_neg (Nat.lt_irrefl _)]
  | _, _, .failedInside htag hlength hconstructed hchildren, depth, hdepth => by
    -- the tag and the length field pay for the two steps down to the children
    have hcontents := length_le_of_header htag hlength
    obtain ⟨depth, rfl⟩ : ∃ d, depth = d + 2 := ⟨depth - 2, by omega⟩
    rw [read_of_constructed htag hlength hconstructed, hchildren.readChildren_eq (by omega)]
    rfl
  | _, _, .constructed htag hlength hconstructed hchildren, depth, hdepth => by
    have hcontents := length_le_of_header htag hlength
    obtain ⟨depth, rfl⟩ : ∃ d, depth = d + 2 := ⟨depth - 2, by omega⟩
    rw [read_of_constructed htag hlength hconstructed, hchildren.readChildren_eq (by omega)]
    rfl

theorem ReadsChildren.readChildren_eq : ∀ {length : Nat} {input : Bytes}
    {outcome : Except TlvError (List Object × Bytes)}, ReadsChildren length input outcome →
    ∀ {depth : Nat} {done : List Object}, input.length ≤ depth →
      readChildren (depth + 2) length done input =
        outcome.map fun inside => (done.reverse ++ inside.1, inside.2)
  | _, _, _, .complete, _, _, _ => by
    rw [readChildren, if_pos rfl]
    simp only [Except.map, List.append_nil]
  | _, _, _, .failed hsome hchild, _, _, hdepth => by
    rw [readChildren, if_neg hsome, hchild.read_eq hdepth]
    rfl
  | _, _, _, .tooLarge hsome hchild hlarge, _, _, hdepth => by
    rw [readChildren, if_neg hsome, hchild.read_eq hdepth]
    dsimp only
    rw [if_pos hlarge]
    rfl
  | _, _, _, .failedLater hsome hchild hfits hmore, depth, _, hdepth => by
    have hafter := hchild.length_le
    obtain ⟨depth, rfl⟩ : ∃ d, depth = d + 1 := ⟨depth - 1, by omega⟩
    rw [readChildren, if_neg hsome, hchild.read_eq hdepth]
    dsimp only
    rw [if_neg (Nat.not_lt.mpr hfits), hmore.readChildren_eq (by omega)]
    rfl
  | _, _, _, .next hsome hchild hfits hmore, depth, _, hdepth => by
    have hafter := hchild.length_le
    obtain ⟨depth, rfl⟩ : ∃ d, depth = d + 1 := ⟨depth - 1, by omega⟩
    rw [readChildren, if_neg hsome, hchild.read_eq hdepth]
    dsimp only
    rw [if_neg (Nat.not_lt.mpr hfits), hmore.readChildren_eq (by omega), List.reverse_cons]
    simp only [Except.map, List.append_assoc, List.singleton_append]

end

theorem ReadsAll.readAll_eq {input : Bytes} {outcome : Except TlvError (List Object)} (hall : ReadsAll input outcome)
    {depth : Nat} {done : List Object} (hdepth : input.length ≤ depth) :
    readAll (depth + 2) done input = outcome.map (done.reverse ++ ·) := by
  induction hall generalizing depth done with
  | complete =>
    rw [readAll, if_pos rfl]
    simp only [Except.map, List.append_nil]
  | failed hsome hobject =>
    rw [readAll, if_neg hsome, hobject.read_eq hdepth]
    rfl
  | @next _ _ _ outcome hsome hobject hmore ih =>
    have hafter := hobject.length_le
    obtain ⟨depth, rfl⟩ : ∃ d, depth = d + 1 := ⟨depth - 1, by omega⟩
    rw [readAll, if_neg hsome, hobject.read_eq hdepth]
    dsimp only
    rw [ih (by omega), List.reverse_cons]
    cases outcome <;> simp only [Except.map, List.append_assoc, List.singleton_append]

/-- Each input has one run and no other, and `decodeAll` comes to the same. -/
theorem readsAll_iff {input : Bytes} {outcome : Except TlvError (List Object)} :
    ReadsAll input outcome ↔ decodeAll input = outcome := by
  have hdecode {outcome : Except TlvError (List Object)} (hall : ReadsAll input outcome) :
      decodeAll input = outcome := by
    rw [decodeAll, hall.readAll_eq (by omega)]
    cases outcome <;> rfl
  constructor
  · exact hdecode
  · intro heq
    obtain ⟨other, hall⟩ := exists_readsAll input
    rw [← heq, hdecode hall]
    exact hall

theorem mapError_tlv_inj {x y : Except TlvError (List Object)} :
    x.mapError ProtocolError.tlv = y.mapError ProtocolError.tlv ↔ x = y := by
  constructor
  · intro h
    cases x <;> cases y <;> cases h <;> rfl
  · rintro rfl
    rfl

theorem readsAll_iff_parse {input : Bytes} {outcome : Except TlvError (List Object)} :
    ReadsAll input outcome ↔ parse input = outcome.mapError ProtocolError.tlv := by
  rw [readsAll_iff, parse, mapError_tlv_inj]

/-! ### What was written -/

mutual

theorem reads_encode : ∀ (o : Object) (rest : Bytes), Encodable o → Reads (encode o ++ rest) (.ok (o, rest))
  | primitive tag value hprimitive, rest, hencodable => by
    rw [Encodable] at hencodable
    rw [encode, List.append_assoc, List.append_assoc]
    exact .primitive (tag.read_bytes _) (readLength_lengthField hencodable _) hprimitive
  | constructed tag children hconstructed, rest, hencodable => by
    rw [Encodable] at hencodable
    rw [encode, List.append_assoc, List.append_assoc]
    exact .constructed (tag.read_bytes _) (readLength_lengthField hencodable.1 _) hconstructed
      (readsChildren_encodeAll children rest hencodable.2)

theorem readsChildren_encodeAll : ∀ (objects : List Object) (rest : Bytes), AllEncodable objects →
    ReadsChildren (totalSize objects) (encodeAll objects ++ rest) (.ok (objects, rest))
  | [], rest, _ => by
    rw [totalSize, encodeAll, List.nil_append]
    exact .complete
  | object :: objects, rest, hencodable => by
    rw [AllEncodable] at hencodable
    have hsize := size_pos object
    rw [totalSize, encodeAll, List.append_assoc]
    refine .next (by omega) (reads_encode object _ hencodable.1) (Nat.le_add_right _ _) ?_
    rw [Nat.add_sub_cancel_left]
    exact readsChildren_encodeAll objects rest hencodable.2

end

theorem readsAll_encodeAll {objects : List Object} (hencodable : AllEncodable objects) :
    ReadsAll (encodeAll objects) (.ok objects) := by
  induction objects with
  | nil =>
    rw [encodeAll]
    exact .complete
  | cons object objects ih =>
    rw [AllEncodable] at hencodable
    have hlength := length_encode_pos object
    have hsome : encode object ++ encodeAll objects ≠ [] :=
      List.append_ne_nil_of_left_ne_nil (List.ne_nil_of_length_pos (by omega)) _
    rw [encodeAll]
    exact .next hsome (reads_encode object _ hencodable.1) (ih hencodable.2)

theorem decodeAll_encodeAll {objects : List Object} (hencodable : AllEncodable objects) :
    decodeAll (encodeAll objects) = .ok objects :=
  readsAll_iff.mp (readsAll_encodeAll hencodable)

theorem parse_encodeAll {objects : List Object} (hencodable : AllEncodable objects) :
    parse (encodeAll objects) = .ok objects :=
  readsAll_iff_parse.mp (readsAll_encodeAll hencodable)

end TapAccess.Tlv.Object
