import TapAccess.Proofs.Apdu.Forms

/-!
# What a frame can carry

Two lengths and one byte limit what a frame says about a command. The length of the data and the limit on the
response are cut to the digits that there is room for, and the byte of an instruction says nothing about whether
the writer took it for a known one. No form of a frame has room for more (`FrameBody.fits`), which bounds every
command that is read at all, however the frame was made (`Command.fits_of_decode`). So a command beyond these bounds
is never read back, and together with `Command.decode_encode` this settles which commands are read back from what is
written for them (`Command.decode_encode_iff`).
-/

namespace TapAccess

/-! ### Instructions -/

namespace InstructionCode

theorem byte_ofByte (b : UInt8) : (ofByte b).byte = b := by
  unfold ofByte
  cases hknown : Instruction.ofByte? b with
  | none => rfl
  | some i =>
    show i.byte = b
    simpa using List.find?_some hknown

theorem canonical_ofByte (b : UInt8) : (ofByte b).Canonical := by
  rw [Canonical, byte_ofByte]

/-- The only codes that are read as others are known bytes passed off as unknown. -/
theorem canonical_iff {c : InstructionCode} : c.Canonical ↔ ∀ i : Instruction, c ≠ .unknown i.byte := by
  cases c with
  | known i => exact ⟨fun _ _ hc => (nomatch hc), fun _ => canonical_known i⟩
  | unknown b =>
    constructor
    · rintro hc i hb
      cases hb
      -- the byte of an instruction is read as that instruction
      have hread : ofByte i.byte = .known i := canonical_known i
      rw [Canonical, byte, hread] at hc
      cases hc
    · intro hno
      have hnone : Instruction.ofByte? b = none := by
        rw [Instruction.ofByte?, List.find?_eq_none]
        intro i _ hb
        exact hno i (by rw [of_decide_eq_true hb])
      rw [Canonical, byte, ofByte, hnone]

end InstructionCode

/-! ### Lengths -/

namespace Command

theorem shortLe_le (b : UInt8) : shortLe b ≤ 256 := by
  have := b.toNat_lt
  unfold shortLe
  split <;> omega

theorem extendedLe_le (limit : Octets 2) : extendedLe limit.toList ≤ 65536 := by
  have hvalue : Bytes.toNat limit.toList < 256 ^ limit.toList.length := Bytes.toNat_lt limit.toList
  rw [limit.length_toList] at hvalue
  unfold extendedLe
  split <;> omega

end Command

theorem FrameBody.fits (body : FrameBody) : body.data.length ≤ 65535 ∧ body.le ≤ 65536 := by
  cases body with
  | empty => exact ⟨Nat.zero_le _, Nat.zero_le _⟩
  | shortLimit limit => exact ⟨Nat.zero_le _, Nat.le_trans (Command.shortLe_le limit) (by decide)⟩
  | shortData data hlength => exact ⟨Nat.le_trans hlength.2 (by decide), Nat.zero_le _⟩
  | shortBoth data limit hlength =>
    exact ⟨Nat.le_trans hlength.2 (by decide), Nat.le_trans (Command.shortLe_le limit) (by decide)⟩
  | extendedLimit limit => exact ⟨Nat.zero_le _, Command.extendedLe_le limit⟩
  | extendedData data hlength => exact ⟨hlength.2, Nat.zero_le _⟩
  | extendedBoth data limit hlength => exact ⟨hlength, Command.extendedLe_le limit⟩

namespace Command

theorem fits_of_decode {bytes : Bytes} {c : Command} (hdecode : decode bytes = .ok c) :
    c.data.length ≤ 65535 ∧ c.le ≤ 65536 ∧ c.instruction.Canonical := by
  obtain ⟨f, -, rfl⟩ := decode_eq_ok_iff.mp hdecode
  exact ⟨f.body.fits.1, f.body.fits.2, InstructionCode.canonical_ofByte f.ins⟩

/-- A command is read back from its bytes if and only if its data is no longer than 65535 bytes, its limit is no
more than 65536, and its instruction is not a known byte passed off as unknown. When the data is longer, no command
is read at all. -/
theorem decode_encode_iff (c : Command) :
    (decode c.encode = .ok c ↔
      c.data.length ≤ 65535 ∧ c.le ≤ 65536 ∧ ∀ i : Instruction, c.instruction ≠ .unknown i.byte) ∧
    (65535 < c.data.length → ∃ cause, decode c.encode = .error cause) := by
  constructor
  · rw [← InstructionCode.canonical_iff]
    constructor
    · exact fits_of_decode
    · rintro ⟨hdata, hle, hinstruction⟩
      exact decode_encode hinstruction hdata hle
  · exact fun hlong => ⟨_, decode_encode_of_long hlong⟩

/-- A command with as many bytes as the length asks for. -/
def stuffed (length : Nat) : Command := ⟨0x80, .known .envelope, 0x00, 0x00, .replicate length 0x00, 65536⟩

/-- The longest data is read back with the largest limit, and one byte more is not. -/
theorem decode_encode_stuffed :
    decode (stuffed 65535).encode = .ok (stuffed 65535) ∧ 65535 < (stuffed 65536).data.length ∧
      ∃ cause, decode (stuffed 65536).encode = .error cause := by
  have hlong : 65535 < (stuffed 65536).data.length := by
    rw [stuffed, List.length_replicate]
    decide
  have hfits : (stuffed 65535).data.length ≤ 65535 := Nat.le_of_eq List.length_replicate
  exact ⟨(decode_encode_iff (stuffed 65535)).1.mpr ⟨hfits, Nat.le_refl _, fun i hi => nomatch hi⟩, hlong,
    (decode_encode_iff (stuffed 65536)).2 hlong⟩

end Command

end TapAccess
