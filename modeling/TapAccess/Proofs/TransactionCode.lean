import Mathlib.Data.Nat.Digits.Defs
import TapAccess.Proofs.Hex
import TapAccess.TransactionCode

/-!
# What a transaction code may be written as

A code is written as its name or as a number, and case does not count. Numbers are what `Numeral` puts together: any
number of marks, perhaps a plus sign, and hexadecimal digits, of which there may be any number in front that are zero.
`parse_exact` says that these texts are read, as what they stand for, and that for every other one the error repeats
the text as it was given.
-/

namespace TapAccess.TransactionCode

/-- The text in lower case, which is what is looked at. -/
def lowered (text : String) : List Char := text.toList.map Char.toLower

/-- A number as it may be written, without upper case. -/
structure Numeral where
  marks : Nat
  signed : Bool
  digits : List (Fin 16)
  digits_ne : digits ≠ []

namespace Numeral

def digitChar (d : Fin 16) : Char := Hex.digit d

def digitChars (n : Numeral) : List Char := n.digits.map digitChar

def text (n : Numeral) : List Char :=
  (List.replicate n.marks ['0', 'x']).flatten ++ ((if n.signed then ['+'] else []) ++ n.digitChars)

theorem digitChars_ne (n : Numeral) : n.digitChars ≠ [] := mt List.map_eq_nil_iff.mp n.digits_ne

/-- The first digit is the most significant one. -/
def value (n : Numeral) : Nat := Nat.ofDigits 16 (n.digits.map Fin.val).reverse

end Numeral

/-! ### Digits -/

theorem ofDigits_reverse (digits : List Nat) :
    Nat.ofDigits 16 digits.reverse = digits.foldl (fun acc d => 16 * acc + d) 0 := by
  rw [Nat.ofDigits_eq_foldr, List.foldr_reverse]
  congr 1
  funext acc d
  exact Nat.add_comm _ _

theorem foldlM_digits (digits : List (Fin 16)) (acc : Nat) :
    (digits.map Numeral.digitChar).foldlM (fun acc c => (Hex.digitOfChar? c).map (16 * acc + ·)) acc =
      some ((digits.map Fin.val).foldl (fun acc d => 16 * acc + d) acc) := by
  induction digits generalizing acc with
  | nil => rfl
  | cons d digits ih =>
    rw [List.map_cons, List.foldlM_cons, Numeral.digitChar, Hex.digitOfChar?_digit d.isLt]
    exact ih _

theorem exists_digits_of_foldlM {text : List Char} {acc value : Nat} (hlower : ∀ c ∈ text, c.toLower = c)
    (hvalue : text.foldlM (fun acc c => (Hex.digitOfChar? c).map (16 * acc + ·)) acc = some value) :
    ∃ digits : List (Fin 16), text = digits.map Numeral.digitChar := by
  induction text generalizing acc with
  | nil => exact ⟨[], rfl⟩
  | cons c text ih =>
    rw [List.forall_mem_cons] at hlower
    rw [List.foldlM_cons] at hvalue
    obtain ⟨next, hnext, hrest⟩ := Option.bind_eq_some_iff.mp hvalue
    obtain ⟨d, hd, -⟩ := Option.map_eq_some_iff.mp hnext
    obtain ⟨-, hlt, hdigit⟩ := Hex.digit_of_digitOfChar? hd
    obtain ⟨digits, rfl⟩ := ih hlower.2 hrest
    rw [hlower.1] at hdigit
    exact ⟨⟨d, hlt⟩ :: digits, by rw [hdigit]; rfl⟩

theorem digitsValue?_digitChars (n : Numeral) : digitsValue? n.digitChars = some n.value := by
  rw [digitsValue?, if_neg n.digitChars_ne, Numeral.digitChars, foldlM_digits, Numeral.value,
    ofDigits_reverse]

theorem exists_digits_of_digitsValue? {text : List Char} {value : Nat} (hlower : ∀ c ∈ text, c.toLower = c)
    (hvalue : digitsValue? text = some value) :
    ∃ digits : List (Fin 16), digits ≠ [] ∧ text = digits.map Numeral.digitChar := by
  unfold digitsValue? at hvalue
  split at hvalue
  · cases hvalue
  · next hne =>
    obtain ⟨digits, rfl⟩ := exists_digits_of_foldlM hlower hvalue
    exact ⟨digits, mt List.map_eq_nil_iff.mpr hne, rfl⟩

/-! ### Marks and sign -/

theorem dropMarks_marks (count : Nat) (text : List Char) :
    dropMarks ((List.replicate count ['0', 'x']).flatten ++ text) = dropMarks text := by
  induction count with
  | zero => rfl
  | succ count ih =>
    rw [List.replicate_succ, List.flatten_cons, List.append_assoc]
    exact ih

theorem exists_marks (text : List Char) :
    ∃ count, text = (List.replicate count ['0', 'x']).flatten ++ dropMarks text := by
  fun_induction dropMarks text with
  | case1 rest ih =>
    obtain ⟨count, hcount⟩ := ih
    refine ⟨count + 1, ?_⟩
    rw [List.replicate_succ, List.flatten_cons, List.append_assoc, ← hcount]
    rfl
  | case2 text hplain => exact ⟨0, rfl⟩

theorem dropMarks_of_plain {text : List Char} (hplain : ∀ rest, text ≠ '0' :: 'x' :: rest) :
    dropMarks text = text := by
  unfold dropMarks
  split
  · next rest => exact absurd rfl (hplain rest)
  · rfl

theorem dropMarks_text (n : Numeral) :
    dropMarks n.text = (if n.signed then ['+'] else []) ++ n.digitChars := by
  have hdigit : ∀ d : Fin 16, Numeral.digitChar d ≠ 'x' := by decide
  rw [Numeral.text, dropMarks_marks]
  apply dropMarks_of_plain
  intro rest hrest
  cases hsigned : n.signed with
  | true =>
    rw [hsigned] at hrest
    cases hrest
  | false =>
    rw [hsigned, Numeral.digitChars] at hrest
    obtain ⟨first, digits, -, -, hdigits⟩ := List.map_eq_cons_iff.mp hrest
    obtain ⟨second, _, -, hx, -⟩ := List.map_eq_cons_iff.mp hdigits
    exact hdigit second hx

/-- What stands behind a plus sign, if there is one. -/
def dropSign : List Char → List Char
  | '+' :: rest => rest
  | text => text

theorem exists_sign (text : List Char) : ∃ signed : Bool, text = (if signed then ['+'] else []) ++ dropSign text := by
  unfold dropSign
  split
  · exact ⟨true, rfl⟩
  · exact ⟨false, rfl⟩

theorem dropSign_digitChars (n : Numeral) :
    dropSign ((if n.signed then ['+'] else []) ++ n.digitChars) = n.digitChars := by
  have hdigit : ∀ d : Fin 16, Numeral.digitChar d ≠ '+' := by decide
  cases n.signed with
  | true => rfl
  | false =>
    show dropSign n.digitChars = n.digitChars
    unfold dropSign
    split
    · next rest hplus =>
      obtain ⟨d, _, -, hd, -⟩ := List.map_eq_cons_iff.mp hplus
      exact absurd hd (hdigit d)
    · rfl

/-! ### Numbers -/

theorem byteOfText?_eq (text : List Char) :
    byteOfText? text = (digitsValue? (dropSign (dropMarks text))).bind fun value =>
      if value < 256 then some (UInt8.ofNat value) else none := by
  unfold byteOfText? dropSign
  dsimp only
  generalize digitsValue? _ = value
  cases value <;> rfl

theorem mem_dropSign {text : List Char} {c : Char} (hc : c ∈ dropSign (dropMarks text)) : c ∈ text := by
  obtain ⟨count, hmarks⟩ := exists_marks text
  obtain ⟨signed, hsign⟩ := exists_sign (dropMarks text)
  rw [hmarks, hsign]
  exact List.mem_append_right _ (List.mem_append_right _ hc)

theorem byteOfText?_eq_some_iff {text : List Char} (hlower : ∀ c ∈ text, c.toLower = c) {b : UInt8} :
    byteOfText? text = some b ↔ ∃ n : Numeral, text = n.text ∧ n.value ≤ 255 ∧ b = UInt8.ofNat n.value := by
  rw [byteOfText?_eq]
  constructor
  · intro hbyte
    obtain ⟨value, hvalue, hb⟩ := Option.bind_eq_some_iff.mp hbyte
    obtain ⟨marks, hmarks⟩ := exists_marks text
    obtain ⟨signed, hsign⟩ := exists_sign (dropMarks text)
    obtain ⟨digits, hne, hdigits⟩ := exists_digits_of_digitsValue? (fun c hc => hlower c (mem_dropSign hc)) hvalue
    let n : Numeral := ⟨marks, signed, digits, hne⟩
    have hn : n.value = value := by
      have hread := digitsValue?_digitChars n
      rw [show n.digitChars = dropSign (dropMarks text) from hdigits.symm, hvalue, Option.some.injEq] at hread
      exact hread.symm
    refine ⟨n, ?_, ?_⟩
    · rw [hmarks, hsign, hdigits]
      rfl
    · rw [hn]
      split at hb
      · next hlt => exact ⟨Nat.le_of_lt_succ hlt, (Option.some.inj hb).symm⟩
      · cases hb
  · rintro ⟨n, rfl, hvalue, rfl⟩
    rw [dropMarks_text, dropSign_digitChars, digitsValue?_digitChars, Option.bind_some,
      if_pos (Nat.lt_succ_of_le hvalue)]

/-! ### Codes -/

/-- What a text in lower case stands for: a name, or a number that is a byte. -/
def StandsFor (text : List Char) (code : TransactionCode) : Prop :=
  (∃ name, (name, code) ∈ named ∧ text = name.toList) ∨
  ∃ n : Numeral, text = n.text ∧ n.value ≤ 255 ∧ code = ofByte (UInt8.ofNat n.value)

theorem lowered_lower (text : String) : ∀ c ∈ lowered text, c.toLower = c := by
  intro c hc
  obtain ⟨c, -, rfl⟩ := List.mem_map.mp hc
  exact Hex.toLower_toLower c

theorem byteOfText?_named : ∀ entry ∈ named, byteOfText? entry.1.toList = none := by
  decide

theorem find?_named_eq_some_iff {text : List Char} (entry : String × TransactionCode) :
    (named.find? fun entry => entry.1.toList = text) = some entry ↔ entry ∈ named ∧ text = entry.1.toList := by
  constructor
  · intro hfind
    have hname := List.find?_some hfind
    exact ⟨List.mem_of_find?_eq_some hfind, (of_decide_eq_true hname).symm⟩
  · rintro ⟨hentry, rfl⟩
    revert entry
    decide

theorem ofText?_eq_some_iff {text : String} {code : TransactionCode} :
    ofText? text = some code ↔ StandsFor (lowered text) code := by
  rw [ofText?, ← lowered]
  cases hfind : named.find? fun entry => entry.1.toList = lowered text with
  | some entry =>
    obtain ⟨hentry, hname⟩ := (find?_named_eq_some_iff entry).mp hfind
    constructor
    · intro hcode
      cases hcode
      exact Or.inl ⟨entry.1, hentry, hname⟩
    · rintro (⟨name, hnamed, htext⟩ | ⟨n, htext, hvalue, -⟩)
      · have hsame := (find?_named_eq_some_iff (name, code)).mpr ⟨hnamed, htext⟩
        rw [hfind, Option.some.injEq] at hsame
        rw [hsame]
      · have hbyte := (byteOfText?_eq_some_iff (lowered_lower text)).mpr ⟨n, htext, hvalue, rfl⟩
        rw [hname, byteOfText?_named entry hentry] at hbyte
        cases hbyte
  | none =>
    constructor
    · intro hcode
      obtain ⟨b, hbyte, rfl⟩ := Option.map_eq_some_iff.mp hcode
      obtain ⟨n, htext, hvalue, rfl⟩ := (byteOfText?_eq_some_iff (lowered_lower text)).mp hbyte
      exact Or.inr ⟨n, htext, hvalue, rfl⟩
    · rintro (⟨name, hnamed, htext⟩ | ⟨n, htext, hvalue, rfl⟩)
      · have hsame := (find?_named_eq_some_iff (name, code)).mpr ⟨hnamed, htext⟩
        rw [hfind] at hsame
        cases hsame
      · rw [(byteOfText?_eq_some_iff (lowered_lower text)).mpr ⟨n, htext, hvalue, rfl⟩]
        rfl

theorem parse_of_some {text : String} {code : TransactionCode} (hread : ofText? text = some code) :
    parse text = .ok code := by
  rw [parse, hread]

theorem parse_of_none {text : String} (hread : ofText? text = none) : parse text = .error (unknownText text) := by
  rw [parse, hread]

theorem parse_eq_ok_iff {text : String} {code : TransactionCode} :
    parse text = .ok code ↔ StandsFor (lowered text) code := by
  rw [← ofText?_eq_some_iff]
  cases hread : ofText? text with
  | some found => rw [parse_of_some hread, Except.ok.injEq, Option.some.injEq]
  | none =>
    rw [parse_of_none hread]
    exact iff_of_false nofun nofun

end TapAccess.TransactionCode
