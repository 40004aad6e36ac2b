import TapAccess.Proofs.Bytes

/-!
# Reading hexadecimal text

Sixteen characters are digits, and ten and more of them go by a second one in upper case. A text that spells bytes
with these, in whatever case each of them stands, is read as those bytes (`Hex.decode_of_spells`). So bytes can be told
from the text that they are printed as, in either of the two forms that are printed.
-/

namespace TapAccess

/-! ### Texts as bytes -/

theorem toList_byteArray (bytes : ByteArray) : bytes.toList = bytes.data.toList := by
  have hloop (i : Nat) (done : List UInt8) :
      ByteArray.toList.loop bytes i done = done.reverse ++ bytes.data.toList.drop i := by
    fun_induction ByteArray.toList.loop bytes i done with
    | case1 i done hlt ih =>
      have hbyte : bytes.get! i = bytes.data[i]! := by cases bytes; rfl
      rw [ih, List.reverse_cons, List.append_assoc, hbyte, getElem!_pos bytes.data i hlt,
        List.drop_eq_getElem_cons (i := i) hlt]
      rfl
    | case2 i done hge =>
      rw [List.drop_eq_nil_of_le (Nat.le_of_not_lt hge), List.append_nil]
  exact hloop 0 []

theorem Bytes.ofText_ofList {text : List Char} (hascii : ∀ c ∈ text, c.toNat < 128) :
    ofText (String.ofList text) = text.map fun c => UInt8.ofNat c.toNat := by
  have hbyte {c : Char} (hc : c.toNat < 128) : String.utf8EncodeChar c = [UInt8.ofNat c.toNat] := by
    have hsize : c.utf8Size = 1 := Char.utf8Size_eq_one_iff.mpr (UInt32.le_iff_toNat_le.mpr (Nat.le_of_lt_succ hc))
    rw [String.utf8EncodeChar_eq_singleton hsize]
    rfl
  rw [ofText, String.toUTF8_eq_toByteArray, String.toByteArray_ofList, toList_byteArray, List.utf8Encode,
    List.toList_data_toByteArray]
  induction text with
  | nil => rfl
  | cons c text ih =>
    rw [List.forall_mem_cons] at hascii
    rw [List.flatMap_cons, List.map_cons, hbyte hascii.1, ih hascii.2]
    rfl

namespace Hex

/-! ### Digits -/

theorem digitOfChar?_digit {value : Nat} (hvalue : value < 16) : digitOfChar? (digit value) = some value := by
  revert value
  decide

/-- A character of the first 128 has a property if each of them has. -/
theorem ascii_cases {P : Char → Prop} (hall : ∀ n < 128, P (Char.ofNat n)) {c : Char} (hc : c.toNat < 128) : P c := by
  rw [← Char.ofNat_toNat c]
  exact hall c.toNat hc

theorem toLower_of_not_ascii {c : Char} (hc : ¬ c.toNat < 128) : c.toLower = c := by
  unfold Char.toLower
  split
  · next hupper => exact absurd (Nat.lt_of_le_of_lt (UInt32.le_iff_toNat_le.mp hupper.2) (by decide)) hc
  · rfl

theorem toLower_toLower (c : Char) : c.toLower.toLower = c.toLower := by
  by_cases hc : c.toNat < 128
  · exact ascii_cases (P := fun c => c.toLower.toLower = c.toLower) (by decide) hc
  · rw [toLower_of_not_ascii hc, toLower_of_not_ascii hc]

theorem digitOfChar?_toLower (c : Char) : digitOfChar? c.toLower = digitOfChar? c := by
  by_cases hc : c.toNat < 128
  · exact ascii_cases (P := fun c => digitOfChar? c.toLower = digitOfChar? c) (by decide) hc
  · rw [toLower_of_not_ascii hc]

theorem digit_of_digitOfChar? {c : Char} {value : Nat} (hvalue : digitOfChar? c = some value) :
    c.toNat < 128 ∧ value < 16 ∧ c.toLower = digit value := by
  by_cases hc : c.toNat < 128
  · refine ⟨hc, ?_⟩
    revert value
    exact ascii_cases (P := fun c => ∀ {value}, digitOfChar? c = some value → value < 16 ∧ c.toLower = digit value)
      (by decide) hc
  · rw [digitOfChar?, if_neg hc] at hvalue
    cases hvalue

/-! ### Whole texts -/

theorem encodeChars_cons (b : UInt8) (bytes : Bytes) :
    encodeChars (b :: bytes) = digit (b.toNat / 16) :: digit (b.toNat % 16) :: encodeChars bytes := rfl

theorem encodeChars_append (first second : Bytes) :
    encodeChars (first ++ second) = encodeChars first ++ encodeChars second := List.flatMap_append

theorem length_encodeChars (bytes : Bytes) : (encodeChars bytes).length = 2 * bytes.length := by
  induction bytes with
  | nil => rfl
  | cons b bytes ih =>
    rw [encodeChars_cons, List.length_cons, List.length_cons, List.length_cons, ih]
    omega

/-- The text is the digits of the bytes, each of them in either case. -/
def Spells (text : List Char) (bytes : Bytes) : Prop := text.map Char.toLower = encodeChars bytes

instance (text : List Char) (bytes : Bytes) : Decidable (Spells text bytes) := inferInstanceAs (Decidable (_ = _))

theorem Spells.isDigit {text : List Char} {bytes : Bytes} (hspells : Spells text bytes) :
    ∀ c ∈ text, ∃ value, digitOfChar? c = some value := by
  have hdigits : ∀ c ∈ encodeChars bytes, ∃ value, digitOfChar? c = some value := by
    intro c hc
    obtain ⟨b, -, hb⟩ := List.mem_flatMap.mp hc
    have hlt := b.toNat_lt
    simp only [List.mem_cons, List.not_mem_nil, or_false] at hb
    rcases hb with rfl | rfl
    · exact ⟨_, digitOfChar?_digit (by omega)⟩
    · exact ⟨_, digitOfChar?_digit (by omega)⟩
  intro c hc
  rw [← digitOfChar?_toLower]
  exact hdigits _ (hspells ▸ List.mem_map_of_mem hc)

theorem Spells.isAscii {text : List Char} {bytes : Bytes} (hspells : Spells text bytes) :
    ∀ c ∈ text, c.toNat < 128 := by
  intro c hc
  obtain ⟨value, hvalue⟩ := hspells.isDigit c hc
  exact (digit_of_digitOfChar? hvalue).1

theorem digitValue?_of_toLower {c : Char} {value : Nat} (hvalue : value < 16) (hc : c.toLower = digit value) :
    digitValue? (UInt8.ofNat c.toNat) = some value := by
  have hdigit : digitOfChar? c = some value := by rw [← digitOfChar?_toLower, hc, digitOfChar?_digit hvalue]
  rw [← hdigit, digitOfChar?, if_pos (digit_of_digitOfChar? hdigit).1]

theorem decodeDigits_of_spells {text : List Char} {bytes : Bytes} (done : Bytes) (hspells : Spells text bytes) :
    decodeDigits done (text.map fun c => UInt8.ofNat c.toNat) = .ok (done.reverse ++ bytes) := by
  induction bytes generalizing text done with
  | nil =>
    rw [List.map_eq_nil_iff.mp hspells, List.append_nil]
    rfl
  | cons b bytes ih =>
    obtain ⟨high, text, rfl, hhigh, htext⟩ := List.map_eq_cons_iff.mp hspells
    obtain ⟨low, text, rfl, hlow, hrest⟩ := List.map_eq_cons_iff.mp htext
    have hlt := b.toNat_lt
    have hbyte : UInt8.ofNat (16 * (b.toNat / 16) + b.toNat % 16) = b := by
      rw [Nat.div_add_mod]
      exact UInt8.ofNat_toNat
    rw [List.map_cons, List.map_cons, decodeDigits, digitValue?_of_toLower (by omega) hhigh,
      digitValue?_of_toLower (by omega) hlow]
    dsimp only
    rw [hbyte, ih (b :: done) hrest, List.reverse_cons, List.append_assoc]
    rfl

theorem decode_of_spells {text : List Char} {bytes : Bytes} (hspells : Spells text bytes) :
    decode (String.ofList text) = .ok bytes := by
  have hlength : text.length = 2 * bytes.length := by
    rw [← length_encodeChars, ← hspells, List.length_map]
  rw [decode, Bytes.ofText_ofList hspells.isAscii]
  rw [if_neg (by rw [List.length_map, hlength]; omega), decodeDigits_of_spells [] hspells]
  rfl

/-! ### Printed bytes -/

theorem spells_encodeChars (bytes : Bytes) : Spells (encodeChars bytes) bytes := by
  have hsame : ∀ value < 16, (digit value).toLower = digit value := by decide
  induction bytes with
  | nil => rfl
  | cons b bytes ih =>
    have hlt := b.toNat_lt
    rw [Spells, encodeChars_cons, List.map_cons, List.map_cons, hsame _ (by omega), hsame _ (by omega), ih]

theorem spells_upper (bytes : Bytes) : Spells ((encodeChars bytes).map Char.toUpper) bytes := by
  have hback : ∀ value < 16, (digit value).toUpper.toLower = digit value := by decide
  induction bytes with
  | nil => rfl
  | cons b bytes ih =>
    have hlt := b.toNat_lt
    rw [Spells, encodeChars_cons, List.map_cons, List.map_cons, List.map_cons, List.map_cons, hback _ (by omega),
      hback _ (by omega), ih]

theorem decode_encode (bytes : Bytes) : decode (encode bytes) = .ok bytes := decode_of_spells (spells_encodeChars bytes)

theorem encode_inj {first second : Bytes} (hsame : encode first = encode second) : first = second := by
  have hread := decode_encode first
  rw [hsame, decode_encode, Except.ok.injEq] at hread
  exact hread.symm

theorem encodeUpper_inj {first second : Bytes} (hsame : encodeUpper first = encodeUpper second) : first = second := by
  have hread : decode (encodeUpper first) = .ok first := decode_of_spells (spells_upper first)
  rw [hsame, encodeUpper, decode_of_spells (spells_upper second), Except.ok.injEq] at hread
  exact hread.symm

end Hex

end TapAccess
