import TapAccess.Proofs.Bytes
import TapAccess.Tlv.Lookup

/-!
# Tags and length fields

Every object begins with a tag and a length field. Both are read back from what was written for them
(`Tag.read_bytes`, `readLength_lengthField`), and what they are read from is known from what was read
(`Tag.eq_of_read`, `readLength_cases`). A length field has digits for lengths below 2^32; an object is `Encodable` when
every length inside it is one of these.
-/

namespace TapAccess.Tlv

/-! ### Tags -/

namespace Tag

theorem length_pos (t : Tag) : 0 < t.bytes.length := by
  obtain ⟨bytes, isTag⟩ := t
  cases bytes with
  | nil => cases isTag
  | cons _ _ => simp

theorem length_le (t : Tag) : t.bytes.length ≤ 3 := by
  obtain ⟨bytes, isTag⟩ := t
  match bytes, isTag with
  | [_], _ | [_, _], _ | [_, _, _], _ => simp

theorem splitContinuation_last {last : UInt8} (rest : Bytes) (hlast : last < 0x80) :
    splitContinuation (last :: rest) = some ([last], rest) := by
  have hlow : ¬ (0x80 : UInt8) ≤ last := UInt8.not_le.mpr hlast
  simp [splitContinuation, hlow]

theorem splitContinuation_more {next last : UInt8} (rest : Bytes) (hnext : 0x80 ≤ next) (hlast : last < 0x80) :
    splitContinuation (next :: last :: rest) = some ([next, last], rest) := by
  have hlow : ¬ (0x80 : UInt8) ≤ last := UInt8.not_le.mpr hlast
  simp [splitContinuation, hnext, hlow]

theorem read_bytes (t : Tag) (rest : Bytes) : read (t.bytes ++ rest) = .ok (t, rest) := by
  obtain ⟨bytes, isTag⟩ := t
  match bytes, isTag with
  | [a], isTag =>
    have hsingle : isContinued a = false := by
      simp only [IsTag, Bool.and_eq_true, Bool.not_eq_true'] at isTag
      exact isTag.2
    show read (a :: rest) = _
    rw [read, hsingle, if_neg Bool.false_ne_true, dif_pos isTag]
  | [a, b], isTag =>
    have htag := isTag
    simp only [IsTag, Bool.and_eq_true, decide_eq_true_eq] at htag
    show read (a :: b :: rest) = _
    rw [read, if_pos htag.1, splitContinuation_last rest htag.2]
    dsimp only
    rw [dif_pos isTag]
  | [a, b, c], isTag =>
    have htag := isTag
    simp only [IsTag, Bool.and_eq_true, decide_eq_true_eq] at htag
    show read (a :: b :: c :: rest) = _
    rw [read, if_pos htag.1.1, splitContinuation_more rest htag.1.2 htag.2]
    dsimp only
    rw [dif_pos isTag]

section

variable {input after : Bytes} {tag : Tag}

theorem eq_of_splitContinuation {more : Bytes} (hsplit : splitContinuation input = some (more, after)) :
    input = more ++ after := by
  rw [splitContinuation] at hsplit
  have hhigh := List.prefix_iff_eq_append.mp <| List.takeWhile_prefix (l := input) (0x80 ≤ ·)
  cases hlow : input.drop (input.takeWhile (0x80 ≤ ·)).length with
  | nil =>
    rw [hlow] at hsplit
    cases hsplit
  | cons last behind =>
    rw [hlow] at hsplit hhigh
    cases hsplit
    rw [List.append_assoc, List.singleton_append, hhigh]

theorem eq_of_read (htag : read input = .ok (tag, after)) : input = tag.bytes ++ after := by
  cases input with
  | nil => cases htag
  | cons first input =>
    rw [read] at htag
    by_cases hcontinued : isContinued first = true
    · rw [if_pos hcontinued] at htag
      cases hsplit : splitContinuation input with
      | none =>
        rw [hsplit] at htag
        cases htag
      | some split =>
        rw [hsplit] at htag
        dsimp only at htag
        by_cases hgood : IsTag (first :: split.1) = true
        · rw [dif_pos hgood] at htag
          cases htag
          rw [eq_of_splitContinuation hsplit]
          rfl
        · rw [dif_neg hgood] at htag
          cases htag
    · rw [if_neg hcontinued] at htag
      by_cases hgood : IsTag [first] = true
      · rw [dif_pos hgood] at htag
        cases htag
        rfl
      · rw [dif_neg hgood] at htag
        cases htag

end

end Tag

namespace Object

/-! ### Length fields -/

theorem digitCount_le {length digits : Nat} (hlength : length < 256 ^ digits) (hdigits : 0 < digits) :
    digitCount length ≤ digits := by
  unfold digitCount
  by_cases hzero : length = 0
  · subst hzero
    rw [Nat.log2_zero]
    omega
  · have hlog : length.log2 < 8 * digits := by
      rw [Nat.log2_lt hzero, Bytes.pow_256]
      exact hlength
    omega

theorem lt_pow_digitCount (length : Nat) : length < 256 ^ digitCount length := by
  rw [← Bytes.pow_256, digitCount]
  refine Nat.lt_of_lt_of_le Nat.lt_log2_self (Nat.pow_le_pow_right (by decide) ?_)
  omega

theorem lengthField_pos (length : Nat) : 0 < (lengthField length).length := by
  unfold lengthField
  split <;> simp

theorem readLength_lengthField {length : Nat} (hlength : length < 2 ^ 32) (rest : Bytes) :
    readLength (lengthField length ++ rest) = .ok (length, rest) := by
  unfold lengthField
  by_cases hshort : length < 0x7F
  · have hvalue : (UInt8.ofNat length).toNat = length := by
      rw [UInt8.toNat_ofNat']
      omega
    have hlow : UInt8.ofNat length < 0x80 := by
      rw [UInt8.lt_iff_toNat_lt, hvalue]
      exact Nat.lt_trans hshort (by decide)
    rw [if_pos hshort, List.singleton_append, readLength, if_pos hlow, hvalue]
  · have hcount : digitCount length ≤ 4 := digitCount_le (by simpa using hlength) (by decide)
    have hfirst : (UInt8.ofNat (0x80 + digitCount length)).toNat = 0x80 + digitCount length := by
      rw [UInt8.toNat_ofNat']
      omega
    have hhigh : ¬ UInt8.ofNat (0x80 + digitCount length) < 0x80 := by
      rw [UInt8.lt_iff_toNat_lt, hfirst]
      exact Nat.not_lt.mpr (Nat.le_add_right _ _)
    have hdigits := Bytes.length_ofNat (digitCount length) length
    rw [if_neg hshort, List.cons_append, readLength, if_neg hhigh, hfirst, Nat.add_sub_cancel_left]
    dsimp only
    rw [if_neg (by omega), List.take_left' hdigits, List.drop_left' hdigits, hdigits,
      if_neg (Nat.lt_irrefl _), Bytes.toNat_ofNat_of_lt (lt_pow_digitCount length)]

section

variable {input rest : Bytes} {length : Nat}

theorem readLength_cases (hread : readLength input = .ok (length, rest)) :
    (∃ first : UInt8, first < 0x80 ∧ input = first :: rest ∧ length = first.toNat) ∨
      ∃ (first : UInt8) (digits : Bytes), ¬ first < 0x80 ∧ digits.length = first.toNat - 0x80 ∧ digits.length ≤ 4 ∧
        input = first :: (digits ++ rest) ∧ length = Bytes.toNat digits := by
  cases input with
  | nil => cases hread
  | cons first input =>
    rw [readLength] at hread
    by_cases hshort : first < 0x80
    · rw [if_pos hshort] at hread
      cases hread
      exact .inl ⟨first, hshort, rfl, rfl⟩
    · rw [if_neg hshort] at hread
      dsimp only at hread
      by_cases hmany : 4 < first.toNat - 0x80
      · rw [if_pos hmany] at hread
        cases hread
      · rw [if_neg hmany] at hread
        by_cases hcut : (input.take (first.toNat - 0x80)).length < first.toNat - 0x80
        · rw [if_pos hcut] at hread
          cases hread
        · rw [if_neg hcut, Except.ok.injEq, Prod.mk.injEq] at hread
          obtain ⟨rfl, rfl⟩ := hread
          have hdigits : (input.take (first.toNat - 0x80)).length = first.toNat - 0x80 := by
            rw [List.length_take] at hcut ⊢
            omega
          exact .inr ⟨first, _, hshort, hdigits, by omega, by rw [List.take_append_drop], rfl⟩

theorem lt_of_readLength (hread : readLength input = .ok (length, rest)) : length < 2 ^ 32 := by
  rcases readLength_cases hread with ⟨first, -, -, rfl⟩ | ⟨-, digits, -, -, hfew, -, rfl⟩
  · have := first.toNat_lt
    omega
  · calc Bytes.toNat digits
        < 256 ^ digits.length := Bytes.toNat_lt _
      _ ≤ 256 ^ 4 := Nat.pow_le_pow_right (by decide) hfew
      _ = 2 ^ 32 := by decide

end

/-! ### Objects -/

mutual

/-- Every length inside the object is below 2^32. -/
def Encodable : Object → Prop
  | primitive _ value _ => value.length < 2 ^ 32
  | constructed _ children _ => totalSize children < 2 ^ 32 ∧ AllEncodable children

/-- Every length inside the objects is below 2^32. -/
def AllEncodable : List Object → Prop
  | [] => True
  | object :: objects => Encodable object ∧ AllEncodable objects

end

theorem allEncodable_iff {objects : List Object} : AllEncodable objects ↔ ∀ o ∈ objects, Encodable o := by
  induction objects with
  | nil => simp [AllEncodable]
  | cons object objects ih => rw [AllEncodable, ih, List.forall_mem_cons]

theorem length_encode_pos (o : Object) : 2 ≤ (encode o).length := by
  cases o with
  | primitive tag value _ =>
    have htag := tag.length_pos
    have hfield := lengthField_pos value.length
    simp only [encode, List.length_append]
    omega
  | constructed tag children _ =>
    have htag := tag.length_pos
    have hfield := lengthField_pos (totalSize children)
    simp only [encode, List.length_append]
    omega

theorem size_pos (o : Object) : 0 < size o := by
  cases o with
  | primitive tag value _ =>
    have htag := tag.length_pos
    simp only [size, enclosingSize]
    omega
  | constructed tag children _ =>
    have htag := tag.length_pos
    simp only [size, enclosingSize]
    omega

end Object

end TapAccess.Tlv
