import TapAccess.Apdu.Response
import TapAccess.Proofs.Bytes

/-!
# Reading frames that were written

`Command.decodeShort_eq_ok_iff` and `Command.decodeExtended_eq_ok_iff` say what the two branches of the reader accept.
`Command.decode_encode`: a command whose data fits into 65535 bytes and whose limit is at most 65536 is read
back from its bytes, in whichever of the two forms it was written. Data that is longer has its length cut to two
bytes, and then no command is read at all (`Command.decode_encode_of_long`). `Response.parse_encode`: every
response is read back, except that a status word with a meaning is found by its number. In the other direction
nothing is lost (`Response.encode_of_parse`).
-/

namespace TapAccess

/-! ### Commands -/

namespace InstructionCode

/-- The code is what its byte is read as. -/
def Canonical (c : InstructionCode) : Prop := ofByte c.byte = c

instance (c : InstructionCode) : Decidable c.Canonical := inferInstanceAs (Decidable (_ = _))

theorem canonical_known (i : Instruction) : Canonical (.known i) := by
  cases i <;> decide

end InstructionCode

namespace Command

variable {c : Command} {rest data : Bytes} {le : Nat}

theorem shortLe_ofNat (hpos : le ≠ 0) (hle : le ≤ 256) : shortLe (UInt8.ofNat le) = le := by
  have hvalue : (UInt8.ofNat le).toNat = le % 256 := UInt8.toNat_ofNat'
  unfold shortLe
  by_cases hfull : le = 256
  · subst hfull
    rfl
  · have hsome : UInt8.ofNat le ≠ 0 := by
      intro hzero
      rw [hzero, UInt8.toNat_zero] at hvalue
      omega
    rw [if_neg hsome, hvalue]
    omega

theorem extendedLe_ofNat (hpos : le ≠ 0) (hle : le ≤ 65536) : extendedLe (Bytes.ofNat 2 le) = le := by
  unfold extendedLe
  rw [Bytes.toNat_ofNat]
  by_cases hfull : le = 65536
  · rw [hfull, if_pos (by decide)]
  · rw [Nat.mod_eq_of_lt (by omega), if_neg hpos]

/-! ### The two branches of the reader -/

theorem decodeShort_eq_ok_iff {lengthByte : UInt8} :
    decodeShort lengthByte rest = .ok (data, le) ↔ data.length = lengthByte.toNat ∧
      (rest = data ∧ le = 0 ∨ ∃ limit, rest = data ++ [limit] ∧ le = shortLe limit) := by
  unfold decodeShort
  dsimp only
  constructor
  · intro hdecode
    split at hdecode
    case isTrue hall =>
      cases hdecode
      exact ⟨hall, .inl ⟨rfl, rfl⟩⟩
    case isFalse =>
      split at hdecode
      case isTrue hboth =>
        cases hdecode
        have hdrop : (rest.drop lengthByte.toNat).length = 1 := by
          rw [List.length_drop]
          omega
        obtain ⟨limit, hlimit⟩ := List.length_eq_one_iff.mp hdrop
        refine ⟨?_, .inr ⟨limit, ?_, ?_⟩⟩
        · rw [List.length_take]
          omega
        · rw [← hlimit, List.take_append_drop]
        · rw [hlimit]
          rfl
      case isFalse => cases hdecode
  · rintro ⟨hlength, ⟨rfl, rfl⟩ | ⟨limit, rfl, rfl⟩⟩
    · rw [if_pos hlength]
    · have hlonger : (data ++ [limit]).length = lengthByte.toNat + 1 := by
        rw [List.length_append, hlength]
        rfl
      rw [if_neg (by omega), if_pos hlonger, ← hlength, List.take_left' rfl, List.drop_left' rfl]
      rfl

theorem decodeExtended_eq_ok_iff {lengthBytes : Bytes} :
    decodeExtended lengthBytes rest = .ok (data, le) ↔
      rest = [] ∧ data = [] ∧ le = extendedLe lengthBytes ∨
      rest ≠ [] ∧ data.length = Bytes.toNat lengthBytes ∧
        (rest = data ∧ le = 0 ∨ ∃ limit : Octets 2, rest = data ++ limit.toList ∧ le = extendedLe limit.toList) := by
  unfold decodeExtended
  dsimp only
  constructor
  · intro hdecode
    split at hdecode
    case isTrue hnone =>
      cases hdecode
      exact .inl ⟨hnone, rfl, rfl⟩
    case isFalse hsome =>
      refine .inr ⟨hsome, ?_⟩
      split at hdecode
      case isTrue hall =>
        cases hdecode
        exact ⟨hall, .inl ⟨rfl, rfl⟩⟩
      case isFalse =>
        split at hdecode
        case isTrue hboth =>
          cases hdecode
          have hdrop : (rest.drop (Bytes.toNat lengthBytes)).length = 2 := by
            rw [List.length_drop]
            omega
          refine ⟨?_, .inr ⟨⟨_, hdrop⟩, (List.take_append_drop _ _).symm, rfl⟩⟩
          rw [List.length_take]
          omega
        case isFalse => cases hdecode
  · rintro (⟨rfl, rfl, rfl⟩ | ⟨hsome, hlength, ⟨rfl, rfl⟩ | ⟨limit, rfl, rfl⟩⟩)
    · rw [if_pos rfl]
    · rw [if_neg hsome, if_pos hlength]
    · have hlonger : (data ++ limit.toList).length = Bytes.toNat lengthBytes + 2 := by
        rw [List.length_append, hlength, limit.length_toList]
      rw [if_neg hsome, if_neg (by omega), if_pos hlonger, ← hlength, List.take_left' rfl, List.drop_left' rfl]

theorem decodeBody_of_short {first : UInt8} (second : UInt8) (rest : Bytes) (hfirst : first ≠ 0x00) :
    decodeBody (first :: second :: rest) = decodeShort first (second :: rest) :=
  if_neg hfirst

theorem toNat_lengthByte (hlength : data.length ≤ 255) : (UInt8.ofNat data.length).toNat = data.length := by
  rw [UInt8.toNat_ofNat']
  omega

theorem decodeBody_of_lengthByte (hlength : 1 ≤ data.length ∧ data.length ≤ 255) (more : Bytes) :
    decodeBody (UInt8.ofNat data.length :: (data ++ more)) = decodeShort (UInt8.ofNat data.length) (data ++ more) := by
  have hfirst : UInt8.ofNat data.length ≠ 0x00 := by
    intro hzero
    have hvalue := toNat_lengthByte hlength.2
    rw [hzero, UInt8.toNat_zero] at hvalue
    omega
  obtain ⟨second, rest, rfl⟩ : ∃ second rest, data = second :: rest :=
    List.exists_cons_of_length_pos (by omega)
  exact decodeBody_of_short second (rest ++ more) hfirst

/-! ### Reading what was written -/

theorem decodeShort_dataField (hdata : data.length ≤ 255) (hle : le ≤ 256) :
    decodeShort (UInt8.ofNat data.length) (data ++ if le = 0 then [] else Bytes.ofNat 1 le) = .ok (data, le) := by
  refine decodeShort_eq_ok_iff.mpr ⟨(toNat_lengthByte hdata).symm, ?_⟩
  by_cases hnone : le = 0
  · exact .inl ⟨by rw [if_pos hnone, List.append_nil], hnone⟩
  · refine .inr ⟨UInt8.ofNat le, ?_, (shortLe_ofNat hnone hle).symm⟩
    rw [if_neg hnone]
    rfl

theorem decodeExtended_dataField (hsome : data ≠ []) (hdata : data.length ≤ 65535) (hle : le ≤ 65536) :
    decodeExtended (Bytes.ofNat 2 data.length) (data ++ if le = 0 then [] else Bytes.ofNat 2 le)
      = .ok (data, le) := by
  have hmore : (data ++ if le = 0 then [] else Bytes.ofNat 2 le) ≠ [] := by simp [hsome]
  have hvalue : Bytes.toNat (Bytes.ofNat 2 data.length) = data.length := Bytes.toNat_ofNat_of_lt (by omega)
  refine decodeExtended_eq_ok_iff.mpr (.inr ⟨hmore, hvalue.symm, ?_⟩)
  by_cases hnone : le = 0
  · exact .inl ⟨by rw [if_pos hnone, List.append_nil], hnone⟩
  · refine .inr ⟨⟨Bytes.ofNat 2 le, Bytes.length_ofNat 2 le⟩, ?_, (extendedLe_ofNat hnone hle).symm⟩
    rw [if_neg hnone]

theorem decodeBody_fields (hdata : c.data.length ≤ 65535) (hle : c.le ≤ 65536) :
    decodeBody (c.dataField ++ c.leField) = .ok (c.data, c.le) := by
  unfold dataField leField
  by_cases hempty : c.data = []
  · rw [if_pos hempty, hempty, List.nil_append]
    by_cases hnone : c.le = 0
    · rw [if_pos hnone, hnone]
      rfl
    · rw [if_neg hnone, if_pos rfl]
      by_cases hextended : c.IsExtended
      · rw [if_pos hextended]
        show decodeExtended (Bytes.ofNat 2 c.le) [] = _
        rw [decodeExtended, if_pos rfl, extendedLe_ofNat hnone hle]
      · have hshort : c.le ≤ 256 := by
          unfold IsExtended maxShortLe at hextended
          omega
        rw [if_neg hextended]
        show Except.ok ([], shortLe (UInt8.ofNat (c.le >>> (8 * 0)))) = _
        rw [Nat.mul_zero, Nat.shiftRight_zero, shortLe_ofNat hnone hshort]
  · rw [if_neg hempty, if_neg hempty, List.nil_append]
    by_cases hextended : c.IsExtended
    · rw [if_pos hextended, if_pos hextended, List.cons_append, List.append_assoc]
      exact decodeExtended_dataField hempty hdata hle
    · have hshort : c.data.length ≤ 255 ∧ c.le ≤ 256 := by
        unfold IsExtended maxShortLe at hextended
        omega
      have hlength : 0 < c.data.length := List.length_pos_iff.mpr hempty
      rw [if_neg hextended, if_neg hextended, List.append_assoc]
      show decodeBody (UInt8.ofNat c.data.length :: (c.data ++ _)) = _
      rw [decodeBody_of_lengthByte ⟨hlength, hshort.1⟩]
      exact decodeShort_dataField hshort.1 hshort.2

theorem decode_encode (hinstruction : c.instruction.Canonical) (hdata : c.data.length ≤ 65535)
    (hle : c.le ≤ 65536) : decode c.encode = .ok c := by
  show decode (c.cla :: c.instruction.byte :: c.p1 :: c.p2 :: (c.dataField ++ c.leField)) = _
  rw [decode, decodeBody_fields hdata hle]
  show Except.ok (Command.mk c.cla (.ofByte c.instruction.byte) c.p1 c.p2 c.data c.le) = _
  rw [hinstruction]

/-- Data that does not fit is not taken for other data: what follows its length is too long by at least 65536. -/
theorem decode_encode_of_long (hlong : 65535 < c.data.length) :
    decode c.encode =
      .error (.extendedLcMismatch (c.data.length % 65536) (c.data.length + c.leField.length)) := by
  have hextended : c.IsExtended := .inl (by omega)
  have hsome : c.data ≠ [] := by
    rw [← List.length_pos_iff]
    omega
  have hle : c.leField.length ≤ 2 := by
    unfold leField
    rw [if_pos hextended, if_neg hsome]
    split <;> simp
  have hmore : c.data ++ c.leField ≠ [] := by simp [hsome]
  have hbody : decodeExtended (Bytes.ofNat 2 c.data.length) (c.data ++ c.leField) =
      .error (.extendedLcMismatch (c.data.length % 65536) (c.data.length + c.leField.length)) := by
    unfold decodeExtended
    dsimp only
    rw [Bytes.toNat_ofNat, if_neg hmore, List.length_append, if_neg (by omega), if_neg (by omega)]
    rfl
  have hfields : decodeBody (c.dataField ++ c.leField) = decodeExtended (Bytes.ofNat 2 c.data.length)
      (c.data ++ c.leField) := by
    rw [dataField, if_neg hsome, if_pos hextended, List.cons_append, List.append_assoc]
    rfl
  show decode (c.cla :: c.instruction.byte :: c.p1 :: c.p2 :: (c.dataField ++ c.leField)) = _
  rw [decode, hfields, hbody]
  rfl

end Command

/-! ### Responses -/

namespace StatusWord

/-- The status word is what its number is read as. -/
def Canonical (s : StatusWord) : Prop := ofValue s.value = s

instance (s : StatusWord) : Decidable s.Canonical := inferInstanceAs (Decidable (_ = _))

theorem canonical_known (code : ResponseCode) : Canonical (.known code) := by
  cases code <;> decide

theorem encode_ok : (known .ok).encode = [0x90, 0x00] := rfl

theorem value_ofValue (w : UInt16) : (ofValue w).value = w := by
  unfold ofValue
  cases hcode : ResponseCode.ofValue? w with
  | none => rfl
  | some code =>
    show code.value = w
    simpa using List.find?_some hcode

end StatusWord

namespace Response

theorem length_encode (r : Response) : r.encode.length = r.payload.length + 2 := by
  rw [encode, List.length_append, StatusWord.encode, Bytes.length_ofNat]

theorem drop_encode (r : Response) : r.encode.drop (r.encode.length - 2) = r.status.encode := by
  rw [length_encode, Nat.add_sub_cancel]
  exact List.drop_left

theorem encode_ok (payload : Bytes) : (ok payload).encode = payload ++ [0x90, 0x00] := by
  rw [encode, ok, StatusWord.encode_ok]

theorem parse_encode {r : Response} (hstatus : r.status.Canonical) : parse r.encode = .ok r := by
  have hvalue : UInt16.ofNat (Bytes.toNat r.status.encode) = r.status.value := by
    rw [← UInt16.toNat_inj, UInt16.toNat_ofNat', StatusWord.encode,
      Bytes.toNat_ofNat_of_lt r.status.value.toNat_lt]
    exact Nat.mod_eq_of_lt r.status.value.toNat_lt
  have hcut : r.encode.length - 2 = r.payload.length := by
    rw [length_encode]
    omega
  unfold parse decode?
  rw [if_neg (by rw [length_encode]; omega)]
  dsimp only
  rw [hcut, encode, List.take_left' rfl, List.drop_left' rfl, hvalue, hstatus]

theorem parse_eq_ok_iff {bytes : Bytes} : (∃ r, parse bytes = .ok r) ↔ 2 ≤ bytes.length := by
  unfold parse decode?
  by_cases hshort : bytes.length < 2
  · rw [if_pos hshort]
    simp
    omega
  · rw [if_neg hshort]
    simp
    omega

theorem parse_of_short {bytes : Bytes} (hshort : bytes.length < 2) :
    parse bytes = .error (.malformedApdu "response is shorter than a status word") := by
  rw [parse, decode?, if_pos hshort]

theorem parse_error_iff {bytes : Bytes} : (∃ e, parse bytes = .error e) ↔ bytes.length < 2 := by
  rw [← Nat.not_le, ← parse_eq_ok_iff]
  cases parse bytes with
  | error e => simp
  | ok r => simp

theorem encode_of_parse {bytes : Bytes} {r : Response} (hparse : parse bytes = .ok r) : r.encode = bytes := by
  have hlong : 2 ≤ bytes.length := parse_eq_ok_iff.mp ⟨r, hparse⟩
  have hword : (bytes.drop (bytes.length - 2)).length = 2 := by
    rw [List.length_drop]
    omega
  have hvalue : Bytes.toNat (bytes.drop (bytes.length - 2)) < 2 ^ 16 := by
    have := Bytes.toNat_lt (bytes.drop (bytes.length - 2))
    rw [hword] at this
    exact this
  unfold parse decode? at hparse
  rw [if_neg (Nat.not_lt.mpr hlong)] at hparse
  cases hparse
  show bytes.take (bytes.length - 2) ++ Bytes.ofNat 2 (StatusWord.ofValue _).value.toNat = bytes
  have hstatus := Bytes.ofNat_toNat (bytes.drop (bytes.length - 2))
  rw [hword] at hstatus
  rw [StatusWord.value_ofValue, UInt16.toNat_ofNat', Nat.mod_eq_of_lt hvalue, hstatus, List.take_append_drop]

theorem parse_encode_ok (payload : Bytes) : parse (ok payload).encode = .ok (ok payload) :=
  parse_encode (StatusWord.canonical_known .ok)

end Response

end TapAccess
