import TapAccess.Proofs.Apdu.Frames

/-!
# The forms of a command frame

After its header a command has one of seven forms: no data or some, no limit on the response or one, and lengths
in one byte or in two behind a zero byte. `FrameBody` lists the forms, `FrameBody.bytes` spells them out, and a form
holds no data that its length field has no room for.

The reader decides between the forms by looking at the first byte, at whether anything follows and at how much. What it
accepts is exactly what the forms spell (`Command.decodeBody_eq_ok_iff`). No bytes are spelled by two forms, as the
length of the whole and the length of the data already tell them apart (`FrameBody.bytes_injective`).
-/

namespace TapAccess

/-- What follows the header of a command, form by form. -/
inductive FrameBody where
  | empty
  | shortLimit (limit : UInt8)
  | shortData (data : Bytes) (hlength : 1 ≤ data.length ∧ data.length ≤ 255)
  | shortBoth (data : Bytes) (limit : UInt8) (hlength : 1 ≤ data.length ∧ data.length ≤ 255)
  | extendedLimit (limit : Octets 2)
  | extendedData (data : Bytes) (hlength : 1 ≤ data.length ∧ data.length ≤ 65535)
  | extendedBoth (data : Bytes) (limit : Octets 2) (hlength : data.length ≤ 65535)

namespace FrameBody

def bytes : FrameBody → Bytes
  | empty => []
  | shortLimit limit => [limit]
  | shortData data _ => UInt8.ofNat data.length :: data
  | shortBoth data limit _ => UInt8.ofNat data.length :: (data ++ [limit])
  | extendedLimit limit => 0x00 :: limit.toList
  | extendedData data _ => 0x00 :: (Bytes.ofNat 2 data.length ++ data)
  | extendedBoth data limit _ => 0x00 :: (Bytes.ofNat 2 data.length ++ (data ++ limit.toList))

def data : FrameBody → Bytes
  | shortData data _ | shortBoth data _ _ | extendedData data _ | extendedBoth data _ _ => data
  | empty | shortLimit _ | extendedLimit _ => []

/-- The limit on the response: zero without one, and the largest of its form when its digits are all zero. -/
def le : FrameBody → Nat
  | empty | shortData _ _ | extendedData _ _ => 0
  | shortLimit limit | shortBoth _ limit _ => if limit = 0x00 then 256 else limit.toNat
  | extendedLimit limit | extendedBoth _ limit _ => if limit.toNat = 0 then 65536 else limit.toNat

end FrameBody

/-- A header and what follows it. -/
structure Frame where
  cla : UInt8
  ins : UInt8
  p1 : UInt8
  p2 : UInt8
  body : FrameBody

namespace Frame

def bytes (f : Frame) : Bytes := f.cla :: f.ins :: f.p1 :: f.p2 :: f.body.bytes

def command (f : Frame) : Command :=
  { cla := f.cla, instruction := .ofByte f.ins, p1 := f.p1, p2 := f.p2, data := f.body.data, le := f.body.le }

end Frame

namespace Command

variable {data : Bytes} {le : Nat}

/-! ### What is read -/

theorem pos_of_ne_zero {lengthByte : UInt8} (hsome : lengthByte ≠ 0x00) : 1 ≤ lengthByte.toNat := by
  have hvalue : lengthByte.toNat ≠ 0 := fun hzero => hsome (UInt8.toNat_inj.mp hzero)
  omega

theorem decodeBody_bytes (body : FrameBody) : decodeBody body.bytes = .ok (body.data, body.le) := by
  cases body with
  | empty => rfl
  | shortLimit limit => rfl
  | shortData data hlength =>
    have hread := decodeBody_of_lengthByte hlength []
    rw [List.append_nil] at hread
    rw [FrameBody.bytes, hread, decodeShort_eq_ok_iff, toNat_lengthByte hlength.2]
    exact ⟨rfl, .inl ⟨rfl, rfl⟩⟩
  | shortBoth data limit hlength =>
    rw [FrameBody.bytes, decodeBody_of_lengthByte hlength, decodeShort_eq_ok_iff, toNat_lengthByte hlength.2]
    exact ⟨rfl, .inr ⟨limit, rfl, rfl⟩⟩
  | extendedLimit limit =>
    obtain ⟨digits, hdigits⟩ := limit
    match digits, hdigits with
    | [high, low], _ => exact decodeExtended_eq_ok_iff.mpr (.inl ⟨rfl, rfl, rfl⟩)
  | extendedData data hlength =>
    have hsome : data ≠ [] := List.ne_nil_of_length_pos hlength.1
    have hvalue : Bytes.toNat (Bytes.ofNat 2 data.length) = data.length := Bytes.toNat_ofNat_of_lt (by omega)
    show decodeExtended (Bytes.ofNat 2 data.length) data = _
    exact decodeExtended_eq_ok_iff.mpr (.inr ⟨hsome, hvalue.symm, .inl ⟨rfl, rfl⟩⟩)
  | extendedBoth data limit hlength =>
    have hsome : data ++ limit.toList ≠ [] := List.ne_nil_of_length_pos (by simp)
    have hvalue : Bytes.toNat (Bytes.ofNat 2 data.length) = data.length := Bytes.toNat_ofNat_of_lt (by omega)
    show decodeExtended (Bytes.ofNat 2 data.length) (data ++ limit.toList) = _
    exact decodeExtended_eq_ok_iff.mpr (.inr ⟨hsome, hvalue.symm, .inr ⟨limit, rfl, rfl⟩⟩)

theorem exists_body_of_decodeBody {bytes : Bytes} (hdecode : decodeBody bytes = .ok (data, le)) :
    ∃ body : FrameBody, body.bytes = bytes ∧ body.data = data ∧ body.le = le := by
  -- the cases are those of the reader
  match bytes with
  | [] =>
    cases hdecode
    exact ⟨.empty, rfl, rfl, rfl⟩
  | [limit] =>
    cases hdecode
    exact ⟨.shortLimit limit, rfl, rfl, rfl⟩
  | first :: second :: rest =>
    by_cases hextended : first = 0x00
    · subst hextended
      cases rest with
      | nil => cases hdecode
      | cons third rest =>
        have hdigits : Bytes.toNat [second, third] < 256 ^ 2 := Bytes.toNat_lt [second, third]
        have hfield : Bytes.ofNat 2 (Bytes.toNat [second, third]) = [second, third] :=
          Bytes.ofNat_toNat [second, third]
        have hread : decodeExtended [second, third] rest = .ok (data, le) := hdecode
        rcases decodeExtended_eq_ok_iff.mp hread with ⟨rfl, rfl, rfl⟩ | ⟨hsome, hlength, hlimit⟩
        · exact ⟨.extendedLimit ⟨[second, third], rfl⟩, rfl, rfl, rfl⟩
        · rw [← hlength] at hfield hdigits
          rcases hlimit with ⟨rfl, rfl⟩ | ⟨limit, rfl, rfl⟩
          · have hpos := List.length_pos_iff.mpr hsome
            refine ⟨.extendedData rest ⟨hpos, by omega⟩, ?_, rfl, rfl⟩
            rw [FrameBody.bytes, hfield]
            rfl
          · refine ⟨.extendedBoth data limit (by omega), ?_, rfl, rfl⟩
            rw [FrameBody.bytes, hfield]
            rfl
    · rw [decodeBody_of_short second rest hextended] at hdecode
      obtain ⟨hlength, hlimit⟩ := decodeShort_eq_ok_iff.mp hdecode
      have hpos := pos_of_ne_zero hextended
      have hbyte := first.toNat_lt
      have hfirst : UInt8.ofNat data.length = first := by
        rw [hlength, UInt8.ofNat_toNat]
      rcases hlimit with ⟨hrest, rfl⟩ | ⟨limit, hrest, rfl⟩
      · refine ⟨.shortData data ⟨by omega, by omega⟩, ?_, rfl, rfl⟩
        rw [FrameBody.bytes, hfirst, hrest]
      · refine ⟨.shortBoth data limit ⟨by omega, by omega⟩, ?_, rfl, rfl⟩
        rw [FrameBody.bytes, hfirst, hrest]

theorem decodeBody_eq_ok_iff {bytes : Bytes} :
    decodeBody bytes = .ok (data, le) ↔ ∃ body : FrameBody, body.bytes = bytes ∧ body.data = data ∧ body.le = le := by
  constructor
  · exact exists_body_of_decodeBody
  · rintro ⟨body, rfl, rfl, rfl⟩
    exact decodeBody_bytes body

end Command

namespace FrameBody

/-- The bytes that a form has besides its data. -/
def overhead : FrameBody → Nat
  | empty => 0
  | shortLimit _ | shortData _ _ => 1
  | shortBoth _ _ _ => 2
  | extendedLimit _ | extendedData _ _ => 3
  | extendedBoth _ _ _ => 5

theorem length_bytes (body : FrameBody) : body.bytes.length = body.overhead + body.data.length := by
  cases body <;> simp [bytes, data, overhead] <;> omega

theorem bytes_injective {a b : FrameBody} (hbytes : a.bytes = b.bytes) : a = b := by
  -- the data is that of both, and the length that is left tells the form, together with whether there is data
  have hread : (a.data, a.le) = (b.data, b.le) := by
    have hboth := Command.decodeBody_bytes a
    rw [hbytes, Command.decodeBody_bytes b] at hboth
    exact (Except.ok.inj hboth).symm
  have hdata : a.data = b.data := congrArg Prod.fst hread
  have hoverhead : a.overhead = b.overhead := by
    have hlength := congrArg List.length hbytes
    rw [length_bytes, length_bytes, hdata] at hlength
    omega
  cases a <;> cases b <;> grind [bytes, data, overhead, Octets.ext, List.append_cancel_left_eq]

end FrameBody

/-! ### Whole frames -/

theorem Frame.bytes_injective {f g : Frame} (hbytes : f.bytes = g.bytes) : f = g := by
  obtain ⟨cla, ins, p1, p2, body⟩ := f
  obtain ⟨cla', ins', p1', p2', body'⟩ := g
  simp only [Frame.bytes, List.cons.injEq] at hbytes
  obtain ⟨rfl, rfl, rfl, rfl, hbody⟩ := hbytes
  rw [FrameBody.bytes_injective hbody]

namespace Command

variable {cla ins p1 p2 : UInt8} {c : Command}

theorem decode_header_eq_ok_iff {body : Bytes} :
    decode (cla :: ins :: p1 :: p2 :: body) = .ok c ↔
      decodeBody body = .ok (c.data, c.le) ∧
        c = { cla, instruction := .ofByte ins, p1, p2, data := c.data, le := c.le } := by
  rw [decode]
  cases hbody : decodeBody body with
  | error cause =>
    constructor
    · intro hdecode
      cases hdecode
    · rintro ⟨hdecode, -⟩
      cases hdecode
  | ok fields =>
    constructor
    · intro hdecode
      cases hdecode
      exact ⟨rfl, rfl⟩
    · rintro ⟨hfields, hc⟩
      rw [Except.ok.inj hfields, hc]
      rfl

theorem decode_eq_ok_iff {bytes : Bytes} :
    decode bytes = .ok c ↔ ∃ f : Frame, f.bytes = bytes ∧ f.command = c := by
  constructor
  · intro hdecode
    match bytes with
    | [] | [_] | [_, _] | [_, _, _] => cases hdecode
    | cla :: ins :: p1 :: p2 :: body =>
      obtain ⟨hfields, hc⟩ := decode_header_eq_ok_iff.mp hdecode
      obtain ⟨body, rfl, hdata, hle⟩ := decodeBody_eq_ok_iff.mp hfields
      refine ⟨⟨cla, ins, p1, p2, body⟩, rfl, ?_⟩
      rw [hc, ← hdata, ← hle]
      rfl
  · rintro ⟨f, rfl, rfl⟩
    exact decode_header_eq_ok_iff.mpr ⟨decodeBody_eq_ok_iff.mpr ⟨f.body, rfl, rfl, rfl⟩, rfl⟩

theorem length_of_decode_short {lc : UInt8} {rest : Bytes} (hlc : lc ≠ 0x00) (hrest : rest ≠ [])
    (hdecode : decode (cla :: ins :: p1 :: p2 :: lc :: rest) = .ok c) :
    rest.length = lc.toNat ∨ rest.length = lc.toNat + 1 := by
  obtain ⟨hbody, -⟩ := decode_header_eq_ok_iff.mp hdecode
  obtain ⟨second, more, rfl⟩ := List.exists_cons_of_ne_nil hrest
  rw [decodeBody_of_short second more hlc] at hbody
  obtain ⟨hlength, ⟨hall, -⟩ | ⟨limit, hall, -⟩⟩ := decodeShort_eq_ok_iff.mp hbody
  · left
    rw [hall, hlength]
  · right
    rw [hall, List.length_append, hlength]
    rfl

theorem length_of_decode_extended {high low : UInt8} {rest : Bytes} (hrest : rest ≠ [])
    (hdecode : decode (cla :: ins :: p1 :: p2 :: 0x00 :: high :: low :: rest) = .ok c) :
    rest.length = Bytes.toNat [high, low] ∨ rest.length = Bytes.toNat [high, low] + 2 := by
  obtain ⟨hbody, -⟩ := decode_header_eq_ok_iff.mp hdecode
  have hread : decodeExtended [high, low] rest = .ok (c.data, c.le) := hbody
  rcases decodeExtended_eq_ok_iff.mp hread with ⟨hnone, -⟩ | ⟨-, hlength, ⟨hall, -⟩ | ⟨limit, hall, -⟩⟩
  · exact absurd hnone hrest
  · left
    rw [hall, hlength]
  · right
    rw [hall, List.length_append, hlength, limit.length_toList]

/-- Bytes are accepted if and only if they are a header and one of the seven forms, and the command is the one that
the form says. No bytes have two forms. So a length that does not agree with the size of the frame is never
accepted. -/
theorem decode_accepts_frames :
    (∀ (bytes : Bytes) (c : Command), decode bytes = .ok c ↔ ∃ f : Frame, f.bytes = bytes ∧ f.command = c) ∧
    (∀ f g : Frame, f.bytes = g.bytes → f = g) ∧
    (∀ (cla ins p1 p2 lc : UInt8) (rest : Bytes) (c : Command), lc ≠ 0x00 → rest ≠ [] →
      decode (cla :: ins :: p1 :: p2 :: lc :: rest) = .ok c →
        rest.length = lc.toNat ∨ rest.length = lc.toNat + 1) ∧
    ∀ (cla ins p1 p2 high low : UInt8) (rest : Bytes) (c : Command), rest ≠ [] →
      decode (cla :: ins :: p1 :: p2 :: 0x00 :: high :: low :: rest) = .ok c →
        rest.length = Bytes.toNat [high, low] ∨ rest.length = Bytes.toNat [high, low] + 2 :=
  ⟨fun _ _ => decode_eq_ok_iff, fun _ _ => Frame.bytes_injective,
    fun _ _ _ _ _ _ _ hlc hrest hdecode => length_of_decode_short hlc hrest hdecode,
    fun _ _ _ _ _ _ _ _ hrest hdecode => length_of_decode_extended hrest hdecode⟩

/-- A frame whose length of the data is zero, and with a limit behind it that is not needed in two bytes. -/
def hollow : Frame := ⟨0x80, 0x3C, 0x00, 0x00, .extendedBoth [] ⟨[0x00, 0x20], rfl⟩ (by decide)⟩

/-- The frame is read as a command without data, no other frame has its bytes, and its two bytes behind the length of
zero are the only way to go on from it. With a length of one byte there is one byte more than it says. -/
theorem decode_accepts_frames_hollow :
    decode hollow.bytes = .ok hollow.command ∧ hollow.command.le = 32 ∧
    (∀ f : Frame, f.bytes = hollow.bytes → f = hollow) ∧
    decode [0x80, 0x3C, 0x00, 0x00, 0x00, 0x00, 0x00, 0x00, 0x20] = .ok hollow.command ∧
    ([0x00, 0x20] : Bytes).length = Bytes.toNat [0x00, 0x00] + 2 ∧
    decode [0x80, 0x3C, 0x00, 0x00, 0x01, 0x41, 0x20] = .ok ⟨0x80, .known .controlFlow, 0x00, 0x00, [0x41], 32⟩ ∧
    ([0x41, 0x20] : Bytes).length = (0x01 : UInt8).toNat + 1 := by
  have hshort : decode [0x80, 0x3C, 0x00, 0x00, 0x01, 0x41, 0x20] =
      .ok ⟨0x80, .known .controlFlow, 0x00, 0x00, [0x41], 32⟩ := rfl
  have hextended : decode [0x80, 0x3C, 0x00, 0x00, 0x00, 0x00, 0x00, 0x00, 0x20] = .ok hollow.command := rfl
  refine ⟨(decode_accepts_frames.1 _ _).mpr ⟨hollow, rfl, rfl⟩, by decide, fun f => decode_accepts_frames.2.1 f hollow,
    hextended, ?_, hshort, ?_⟩
  · exact (decode_accepts_frames.2.2.2 _ _ _ _ _ _ _ _ (by decide) hextended).resolve_left (by decide)
  · exact (decode_accepts_frames.2.2.1 _ _ _ _ _ _ _ (by decide) (by decide) hshort).resolve_left (by decide)

end Command

end TapAccess
