import TapAccess.Proofs.Apdu.Range

/-!
# Writing a command that was read

Some forms of a frame spell the same command at different lengths: the extended form may be used where the short one
would do, and it may announce data of length zero. `FrameBody.IsConcise` singles out the forms that do neither. The
writer always takes such a form: written again, a concise frame is what it was
(`FrameBody.fields_of_isConcise`), and any other gets shorter (`FrameBody.length_fields_lt`).
-/

namespace TapAccess

namespace FrameBody

/-- The extended form is used where the short one has no room, and never around data that is not there. -/
def IsConcise : FrameBody → Prop
  | empty | shortLimit _ | shortData _ _ | shortBoth _ _ _ => True
  | extendedLimit limit => 256 < (extendedLimit limit).le
  | extendedData data _ => 255 < data.length
  | extendedBoth data limit h => data ≠ [] ∧ (255 < data.length ∨ 256 < (extendedBoth data limit h).le)

end FrameBody

namespace Command

/-! ### Limits -/

theorem shortLe_pos (limit : UInt8) : 0 < shortLe limit := by
  unfold shortLe
  split
  case isTrue => decide
  case isFalse hsome => exact pos_of_ne_zero hsome

theorem extendedLe_pos (digits : Bytes) : 0 < extendedLe digits := by
  unfold extendedLe
  split <;> omega

theorem ofNat_shortLe (limit : UInt8) : Bytes.ofNat 1 (shortLe limit) = [limit] := by
  have hdigit : Bytes.ofNat 1 limit.toNat = [limit] := by
    have hdigits := Bytes.ofNat_toNat [limit]
    rwa [Bytes.toNat_cons, List.length_nil, Nat.pow_zero, Nat.mul_one] at hdigits
  -- the digit of a limit is its last one, and that of the largest limit is zero
  unfold shortLe
  split
  case isTrue hzero =>
    subst hzero
    rfl
  case isFalse => exact hdigit

theorem ofNat_extendedLe (limit : Octets 2) : Bytes.ofNat 2 (extendedLe limit.toList) = limit.toList := by
  have hdigits := Bytes.ofNat_toNat limit.toList
  rw [limit.length_toList] at hdigits
  unfold extendedLe
  split
  case isTrue hzero =>
    rw [hzero] at hdigits
    rw [← hdigits]
    rfl
  case isFalse => exact hdigits

/-! ### The fields of a command

What is written depends on the data and the limit alone, so both are given by equations here.
-/

variable {c : Command} {data : Bytes} {le : Nat}

theorem not_isExtended (hdata : c.data = data) (hle : c.le = le) (hfew : data.length ≤ 255) (hlow : le ≤ 256) :
    ¬ c.IsExtended := by
  unfold IsExtended maxShortLe
  rw [hdata, hle]
  omega

theorem dataField_of_empty (hdata : c.data = []) : c.dataField = [] := if_pos hdata

theorem dataField_of_short (hdata : c.data = data) (hsome : 1 ≤ data.length) (hshort : ¬ c.IsExtended) :
    c.dataField = UInt8.ofNat data.length :: data := by
  subst hdata
  rw [dataField, if_neg (List.ne_nil_of_length_pos hsome), if_neg hshort]
  rfl

theorem dataField_of_extended (hdata : c.data = data) (hsome : 1 ≤ data.length) (hextended : c.IsExtended) :
    c.dataField = 0x00 :: (Bytes.ofNat 2 data.length ++ data) := by
  subst hdata
  rw [dataField, if_neg (List.ne_nil_of_length_pos hsome), if_pos hextended]

theorem leField_of_none (hle : c.le = 0) : c.leField = [] := if_pos hle

theorem leField_of_short (hle : c.le = le) (hpos : 0 < le) (hshort : ¬ c.IsExtended) :
    c.leField = Bytes.ofNat 1 le := by
  subst hle
  rw [leField, if_neg (Nat.ne_of_gt hpos), if_neg hshort]

theorem leField_of_extended (hle : c.le = le) (hpos : 0 < le) (hextended : c.IsExtended) :
    c.leField = (if c.data = [] then [0x00] else []) ++ Bytes.ofNat 2 le := by
  subst hle
  rw [leField, if_neg (Nat.ne_of_gt hpos), if_pos hextended]

theorem length_leField_le (c : Command) : c.leField.length ≤ 3 := by
  unfold leField
  split
  · simp
  · split
    · split <;> simp
    · simp

end Command

namespace FrameBody

open Command

variable {c : Command} {body : FrameBody}

theorem fields_of_isConcise (hdata : c.data = body.data) (hle : c.le = body.le) (hconcise : body.IsConcise) :
    c.dataField ++ c.leField = body.bytes := by
  cases body with
  | empty =>
    rw [dataField_of_empty hdata, leField_of_none hle]
    rfl
  | shortLimit limit =>
    have hshort := not_isExtended hdata hle (Nat.zero_le 255) (shortLe_le limit)
    rw [dataField_of_empty hdata, leField_of_short hle (shortLe_pos limit) hshort]
    exact ofNat_shortLe limit
  | shortData data hlength =>
    have hshort := not_isExtended hdata hle hlength.2 (Nat.zero_le 256)
    rw [dataField_of_short hdata hlength.1 hshort, leField_of_none hle, List.append_nil]
    rfl
  | shortBoth data limit hlength =>
    have hshort := not_isExtended hdata hle hlength.2 (shortLe_le limit)
    rw [dataField_of_short hdata hlength.1 hshort, leField_of_short hle (shortLe_pos limit) hshort]
    exact congrArg (fun digits => UInt8.ofNat data.length :: (data ++ digits)) (ofNat_shortLe limit)
  | extendedLimit limit =>
    have hnone : c.data = [] := hdata
    have hextended : c.IsExtended := .inr (by rw [hle]; exact hconcise)
    rw [dataField_of_empty hnone, leField_of_extended hle (extendedLe_pos limit.toList) hextended, if_pos hnone]
    exact congrArg (fun digits => 0x00 :: digits) (ofNat_extendedLe limit)
  | extendedData data hlength =>
    have hextended : c.IsExtended := .inl (by rw [hdata]; exact hconcise)
    rw [dataField_of_extended hdata hlength.1 hextended, leField_of_none hle, List.append_nil]
    rfl
  | extendedBoth data limit hlength =>
    have hpos : 1 ≤ data.length := List.length_pos_iff.mpr hconcise.1
    have hsome : c.data ≠ [] := by rw [hdata]; exact hconcise.1
    have hextended : c.IsExtended := by rw [IsExtended, hdata, hle]; exact hconcise.2
    rw [dataField_of_extended hdata hpos hextended, leField_of_extended hle (extendedLe_pos limit.toList) hextended,
      if_neg hsome, List.nil_append, List.cons_append, List.append_assoc]
    exact congrArg (fun digits => 0x00 :: (Bytes.ofNat 2 data.length ++ (data ++ digits))) (ofNat_extendedLe limit)

theorem length_fields_lt (hdata : c.data = body.data) (hle : c.le = body.le) (hwasteful : ¬ body.IsConcise) :
    (c.dataField ++ c.leField).length < body.bytes.length := by
  rw [length_bytes, List.length_append]
  cases body with
  | empty | shortLimit | shortData | shortBoth => exact absurd trivial hwasteful
  | extendedLimit limit =>
    have hshort := not_isExtended hdata hle (Nat.zero_le 255) (Nat.not_lt.mp hwasteful)
    rw [dataField_of_empty hdata, leField_of_short hle (extendedLe_pos limit.toList) hshort, Bytes.length_ofNat]
    simp only [overhead, List.length_nil]
    omega
  | extendedData data hlength =>
    have hshort := not_isExtended hdata hle (Nat.not_lt.mp hwasteful) (Nat.zero_le 256)
    rw [dataField_of_short hdata hlength.1 hshort, leField_of_none hle, List.length_cons, List.length_nil]
    simp only [overhead]
    omega
  | extendedBoth data limit hlength =>
    by_cases hnone : data = []
    · -- the two bytes for a length of zero are saved, whether the limit needs two bytes or not
      have hfield := length_leField_le c
      rw [dataField_of_empty (hdata.trans hnone)]
      simp only [overhead, List.length_nil]
      omega
    · simp only [IsConcise, not_and, not_or, Nat.not_lt] at hwasteful
      obtain ⟨hfew, hlow⟩ := hwasteful hnone
      have hshort := not_isExtended hdata hle hfew hlow
      rw [dataField_of_short hdata (List.length_pos_iff.mpr hnone) hshort,
        leField_of_short hle (extendedLe_pos limit.toList) hshort, Bytes.length_ofNat, List.length_cons]
      simp only [overhead]
      omega

end FrameBody

namespace Command

/-- However a command was framed, writing it gives no more bytes than it came in, and the same bytes if and only if it
was framed concisely; what is written is read as the same command. -/
theorem encode_normalises {bytes : Bytes} {c : Command} (hdecode : decode bytes = .ok c) :
    decode c.encode = .ok c ∧ c.encode.length ≤ bytes.length ∧
      (c.encode = bytes ↔ ∃ f : Frame, f.bytes = bytes ∧ f.body.IsConcise) := by
  obtain ⟨hfitsData, hfitsLe, hcanonical⟩ := fits_of_decode hdecode
  obtain ⟨f, rfl, rfl⟩ := decode_eq_ok_iff.mp hdecode
  have hheader : f.command.encode = f.cla :: f.ins :: f.p1 :: f.p2 :: (f.command.dataField ++ f.command.leField) := by
    show f.cla :: (InstructionCode.ofByte f.ins).byte :: f.p1 :: f.p2 :: _ = _
    rw [InstructionCode.byte_ofByte]
    rfl
  have hconcise (h : f.body.IsConcise) : f.command.encode = f.bytes := by
    rw [hheader, FrameBody.fields_of_isConcise rfl rfl h, Frame.bytes]
  have hwasteful (h : ¬ f.body.IsConcise) : f.command.encode.length < f.bytes.length := by
    have hfields := FrameBody.length_fields_lt (c := f.command) rfl rfl h
    simp only [hheader, Frame.bytes, List.length_cons]
    omega
  refine ⟨decode_encode hcanonical hfitsData hfitsLe, ?_, ?_, ?_⟩
  · by_cases h : f.body.IsConcise
    · exact Nat.le_of_eq (congrArg List.length (hconcise h))
    · exact Nat.le_of_lt (hwasteful h)
  · intro hsame
    by_cases h : f.body.IsConcise
    · exact ⟨f, rfl, h⟩
    · exact absurd (congrArg List.length hsame) (Nat.ne_of_lt (hwasteful h))
  · rintro ⟨g, hbytes, hg⟩
    exact hconcise (Frame.bytes_injective hbytes ▸ hg)

/-- The frame without data loses four bytes when it is written again, and what is left of it is then kept. -/
theorem encode_normalises_hollow :
    decode hollow.bytes = .ok hollow.command ∧ hollow.command.encode = [0x80, 0x3C, 0x00, 0x00, 0x20] ∧
    decode hollow.command.encode = .ok hollow.command ∧ hollow.command.encode.length ≤ hollow.bytes.length ∧
    ¬ (∃ f : Frame, f.bytes = hollow.bytes ∧ f.body.IsConcise) ∧
    ∃ f : Frame, f.bytes = hollow.command.encode ∧ f.body.IsConcise := by
  have hdecode : decode hollow.bytes = .ok hollow.command := decode_eq_ok_iff.mpr ⟨hollow, rfl, rfl⟩
  have hencode : hollow.command.encode = [0x80, 0x3C, 0x00, 0x00, 0x20] := by decide
  obtain ⟨hagain, hlength, hsame⟩ := encode_normalises hdecode
  refine ⟨hdecode, hencode, hagain, hlength, fun hframe => ?_, (encode_normalises hagain).2.2.mp rfl⟩
  have hkept := hsame.mpr hframe
  rw [hencode] at hkept
  exact absurd hkept (by decide)

end Command

end TapAccess
