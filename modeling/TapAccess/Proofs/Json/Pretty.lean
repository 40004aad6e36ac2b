import Mathlib.Tactic.SplitIfs
import TapAccess.Json.Read
import TapAccess.Proofs.Hex

/-!
# Reading back what is written

A value is read back from its pretty form, if its numbers are natural ones and none of its texts lacks half a character
(`parse?_pretty`).

A reader that stands in front of a value does not know where it ends. `ReadBack` says that it stops there, whatever
comes behind, as long as a number is not carried on. Each item of an array and each member of an object is behind a
line break, which makes no difference to the reader, and takes one step of the depth and more than one character.
-/

namespace TapAccess.Json

/-- A value whose numbers are natural ones, and whose texts are whole. -/
inductive Plain : Json → Prop
  | null : Plain .null
  | bool (value : Bool) : Plain (.bool value)
  | natural (n : Nat) : Plain (.ofNat n)
  | text (value : String) : Plain (.text value)
  | array {items : List Json} (hitems : ∀ item ∈ items, Plain item) : Plain (.array items)
  | object {members : List (String × Json)} (hmembers : ∀ entry ∈ members, Plain entry.2) : Plain (.object members)

/-! ### Numbers -/

theorem isDigit_of_mem_toDigits {n : Nat} {c : Char} (hc : c ∈ Nat.toDigits 10 n) : c.isDigit :=
  Nat.isDigit_of_mem_toDigits (by decide) (by decide) hc

theorem exists_toDigits_eq_cons (n : Nat) : ∃ c more, Nat.toDigits 10 n = c :: more ∧ c.isDigit := by
  obtain ⟨c, more, hdigits⟩ := List.exists_cons_of_ne_nil (Nat.toDigits_ne_nil (n := n) (b := 10))
  exact ⟨c, more, hdigits, isDigit_of_mem_toDigits (hdigits ▸ List.mem_cons_self)⟩

theorem natural?_ofNat (n : Nat) : natural? (ofNat n) = some n := by
  rw [ofNat, natural?, if_pos (List.all_eq_true.mpr fun _ => isDigit_of_mem_toDigits)]
  exact congrArg some (Nat.ofDigitChars_toDigits (by decide) (by decide))

theorem ofNat_inj {first second : Nat} (hsame : ofNat first = ofNat second) : first = second := by
  have hread := natural?_ofNat first
  rw [hsame, natural?_ofNat, Option.some.injEq] at hread
  exact hread.symm

/-- Nothing in front of the input carries on a number. -/
def EndsNumber (input : List Char) : Prop := ∀ c ∈ input.head?, ¬ c.isDigit ∧ c ≠ '.' ∧ c ≠ 'e' ∧ c ≠ 'E'

theorem head?_toDigits {n : Nat} (hpos : 0 < n) : (Nat.toDigits 10 n).head? ≠ some '0' := by
  induction n using Nat.strongRecOn with
  | ind n ih =>
    rcases Nat.lt_or_ge n 10 with hlt | hge
    · rw [Nat.toDigits_of_lt_base hlt]
      have hdigit : ∀ value < 10, 0 < value → [value.digitChar].head? ≠ some '0' := by decide
      exact hdigit n hlt hpos
    · obtain ⟨c, more, hdigits, -⟩ := exists_toDigits_eq_cons (n / 10)
      have hhead := ih (n / 10) (Nat.div_lt_self hpos (by decide)) (Nat.div_pos hge (by decide))
      rw [Nat.toDigits_of_base_le (by decide) hge]
      rw [hdigits] at hhead ⊢
      exact hhead

theorem toDigits_ne_zero_cons (n : Nat) (c : Char) (more : List Char) : Nat.toDigits 10 n ≠ '0' :: c :: more := by
  intro hdigits
  rcases Nat.eq_zero_or_pos n with rfl | hpos
  · cases hdigits
  · exact head?_toDigits hpos (by rw [hdigits]; rfl)

section

variable {input : List Char} (hends : EndsNumber input)
include hends

theorem digits?_toDigits (n : Nat) : digits? (Nat.toDigits 10 n ++ input) = some (Nat.toDigits 10 n, input) := by
  have hstop : input.takeWhile Char.isDigit = [] ∧ input.dropWhile Char.isDigit = input := by
    cases input with
    | nil => exact ⟨rfl, rfl⟩
    | cons c input =>
      have hc := (hends c rfl).1
      exact ⟨List.takeWhile_cons_of_neg hc, List.dropWhile_cons_of_neg hc⟩
  have htake : (Nat.toDigits 10 n ++ input).takeWhile Char.isDigit = Nat.toDigits 10 n := by
    rw [List.takeWhile_append_of_pos fun _ => isDigit_of_mem_toDigits, hstop.1, List.append_nil]
  have hdrop : (Nat.toDigits 10 n ++ input).dropWhile Char.isDigit = input := by
    rw [List.dropWhile_append_of_pos fun _ => isDigit_of_mem_toDigits, hstop.2]
  rw [digits?, htake, hdrop]
  split
  · next hnil => exact absurd hnil Nat.toDigits_ne_nil
  · rfl

theorem wholePart?_toDigits (n : Nat) : wholePart? (Nat.toDigits 10 n ++ input) = some (Nat.toDigits 10 n, input) := by
  rw [wholePart?, digits?_toDigits hends]
  split
  · next hzero =>
    rw [Option.some.injEq, Prod.mk.injEq] at hzero
    exact absurd hzero.1 (toDigits_ne_zero_cons n _ _)
  · rfl

theorem fraction?_eq_nil : fraction? input = some ([], input) := by
  unfold fraction?
  split
  · exact absurd rfl (hends '.' rfl).2.1
  · rfl

theorem exponent?_eq_nil : exponent? input = some ([], input) := by
  unfold exponent?
  split
  · next c rest =>
    obtain ⟨-, -, hlower, hupper⟩ := hends c rfl
    rw [if_neg (not_or.mpr ⟨hlower, hupper⟩)]
  · rfl

theorem number?_toDigits (n : Nat) : number? (Nat.toDigits 10 n ++ input) = some (Nat.toDigits 10 n, input) := by
  obtain ⟨c, more, hdigits, hdigit⟩ := exists_toDigits_eq_cons n
  -- there is no sign to be taken off
  have hsign : c ≠ '-' := by
    rintro rfl
    cases hdigit
  have hwhole := wholePart?_toDigits hends n
  rw [hdigits, List.cons_append] at hwhole ⊢
  unfold number?
  split
  next sign _ heq =>
  split at heq
  · next hminus =>
    rw [List.cons.injEq] at hminus
    exact absurd hminus.1 hsign
  · cases heq
    rw [hwhole]
    show (fraction? input).bind _ = _
    rw [fraction?_eq_nil hends]
    show (exponent? input).bind _ = _
    rw [exponent?_eq_nil hends]
    show some (_, input) = _
    rw [List.nil_append, List.append_nil, List.append_nil]

end

/-! ### Texts -/

theorem unit?_control {c : Char} (hc : c.toNat < 0x20) (rest : List Char) :
    unit? ('0' :: '0' :: (Hex.encodeChars [UInt8.ofNat c.toNat] ++ rest)) = some (c.toNat, rest) := by
  have hvalue : (UInt8.ofNat c.toNat).toNat = c.toNat := by
    rw [UInt8.toNat_ofNat']
    exact Nat.mod_eq_of_lt (by omega)
  rw [Hex.encodeChars_cons, hvalue]
  show unit? (Hex.digit 0 :: Hex.digit 0 :: Hex.digit (c.toNat / 16) :: Hex.digit (c.toNat % 16) :: rest) = _
  rw [unit?, Hex.digitOfChar?_digit (by omega), Hex.digitOfChar?_digit (by omega), Hex.digitOfChar?_digit (by omega)]
  show some (((0 * 16 + 0) * 16 + c.toNat / 16) * 16 + c.toNat % 16, rest) = _
  congr 2
  omega

theorem piece?_escape (c : Char) (rest : List Char) : piece? (escape c ++ rest) = some (.whole c, rest) := by
  unfold escape
  split_ifs with hquote hslash hline hreturn htab hback hfeed hcontrol
  · subst hquote; rfl
  · subst hslash; rfl
  · subst hline; rfl
  · subst hreturn; rfl
  · subst htab; rfl
  · rw [← Char.ofNat_toNat c, hback]; rfl
  · rw [← Char.ofNat_toNat c, hfeed]; rfl
  · show unicodeEscape? ('0' :: '0' :: (Hex.encodeChars [UInt8.ofNat c.toNat] ++ rest)) = _
    rw [unicodeEscape?, unit?_control hcontrol]
    show (if 0xD800 ≤ c.toNat ∧ c.toNat < 0xDC00 then _ else _) = _
    rw [if_neg (by omega), if_neg (by omega), Char.ofNat_toNat]
    rfl
  · show piece? (c :: rest) = _
    -- what is left stands for itself, since the other pieces begin with a quote or a backslash
    unfold piece?
    split
    · next heq => exact absurd (List.cons.inj heq).1 hquote
    · next heq => exact absurd (List.cons.inj heq).1 hslash
    · next heq => exact absurd (List.cons.inj heq).1 hslash
    · next heq => exact absurd (List.cons.inj heq).1 hslash
    · next heq =>
      obtain ⟨rfl, rfl⟩ := List.cons.inj heq
      exact if_neg hcontrol
    · next heq => cases heq

theorem length_escape_pos (c : Char) : 0 < (escape c).length := by
  unfold escape
  split_ifs <;> exact Nat.succ_pos _

theorem length_le_length_escaped (value : List Char) : value.length ≤ (value.flatMap escape).length := by
  induction value with
  | nil => exact Nat.le_refl 0
  | cons c value ih =>
    have hpos := length_escape_pos c
    rw [List.flatMap_cons, List.length_append, List.length_cons]
    omega

theorem readText_escaped {value : List Char} {depth : Nat} (hdepth : value.length < depth) (done rest : List Char) :
    readText depth done false (value.flatMap escape ++ '"' :: rest) =
      some (some (String.ofList (done.reverse ++ value)), rest) := by
  induction value generalizing depth done with
  | nil =>
    obtain ⟨depth, rfl⟩ := Nat.exists_eq_add_one_of_ne_zero (Nat.ne_of_gt hdepth)
    rw [List.append_nil]
    rfl
  | cons c value ih =>
    obtain ⟨depth, rfl⟩ := Nat.exists_eq_add_one_of_ne_zero (Nat.ne_zero_of_lt hdepth)
    rw [List.flatMap_cons, List.append_assoc, readText, piece?_escape]
    dsimp only
    rw [ih (Nat.lt_of_succ_lt_succ hdepth), List.reverse_cons, List.append_assoc]
    rfl

theorem text?_escaped (value : String) (rest : List Char) :
    text? (value.toList.flatMap escape ++ '"' :: rest) = some (some value, rest) := by
  have hdepth : value.toList.length < (value.toList.flatMap escape ++ '"' :: rest).length + 1 := by
    have hle := length_le_length_escaped value.toList
    rw [List.length_append]
    omega
  rw [text?, readText_escaped hdepth]
  exact congrArg (fun value => some (some value, rest)) String.ofList_toList

/-! ### Blanks -/

theorem skipBlanks_append {blanks : List Char} (hblanks : ∀ c ∈ blanks, isBlank c) (input : List Char) :
    skipBlanks (blanks ++ input) = skipBlanks input :=
  List.dropWhile_append_of_pos hblanks

theorem isBlank_of_mem_newline {level : Nat} {c : Char} (hc : c ∈ newline level) : isBlank c := by
  rcases List.mem_cons.mp hc with rfl | hspace
  · rfl
  · rw [(List.mem_replicate.mp hspace).2]
    rfl

theorem skipBlanks_newline (level : Nat) (input : List Char) : skipBlanks (newline level ++ input) = skipBlanks input :=
  skipBlanks_append (fun _ => isBlank_of_mem_newline) input

theorem skipBlanks_cons {c : Char} (hc : isBlank c = false) (input : List Char) :
    skipBlanks (c :: input) = c :: input := by
  rw [skipBlanks, List.dropWhile_cons_of_neg (Bool.not_eq_true _ ▸ hc)]

theorem endsNumber_newline (level : Nat) (input : List Char) : EndsNumber (newline level ++ input) := by
  intro c hc
  cases hc
  decide

theorem endsNumber_comma (input : List Char) : EndsNumber ([','] ++ input) := by
  intro c hc
  cases hc
  decide

theorem readValue_append {blanks : List Char} (hblanks : ∀ c ∈ blanks, isBlank c) (depth : Nat) (input : List Char) :
    readValue depth (blanks ++ input) = readValue depth input := by
  cases depth with
  | zero => rfl
  | succ depth => unfold readValue; rw [skipBlanks_append hblanks]

/-! ### Values -/

theorem isBlank_of_isDigit {c : Char} (hdigit : c.isDigit) : isBlank c = false := by
  rw [Bool.eq_false_iff]
  intro hblank
  simp only [isBlank, Bool.or_eq_true, decide_eq_true_eq] at hblank
  rcases hblank with ((rfl | rfl) | rfl) | rfl <;> cases hdigit

theorem Plain.exists_prettyChars_eq_cons {value : Json} (hplain : Plain value) (level : Nat) :
    ∃ c more, prettyChars level value = c :: more ∧ isBlank c = false ∧ c ≠ ']' := by
  cases hplain with
  | null => exact ⟨_, _, rfl, rfl, by decide⟩
  | bool value => cases value <;> exact ⟨_, _, rfl, rfl, by decide⟩
  | natural n =>
    obtain ⟨c, more, hdigits, hdigit⟩ := exists_toDigits_eq_cons n
    refine ⟨c, more, hdigits, isBlank_of_isDigit hdigit, ?_⟩
    rintro rfl
    cases hdigit
  | text => exact ⟨_, _, rfl, rfl, by decide⟩
  | @array items _ => cases items <;> exact ⟨_, _, rfl, rfl, by decide⟩
  | @object members _ => cases members <;> exact ⟨_, _, rfl, rfl, by decide⟩

/-- The value is read where it stands, whatever comes behind it. -/
def ReadBack (value : Json) : Prop :=
  ∀ {level depth : Nat} {rest : List Char}, EndsNumber rest → (prettyChars level value).length ≤ depth →
    readValue depth (prettyChars level value ++ rest) = some (value, rest)

theorem readBack_text (value : String) : ReadBack (.text value) := by
  intro level depth rest _ hdepth
  obtain ⟨depth, rfl⟩ := Nat.exists_eq_add_one_of_ne_zero (Nat.ne_zero_of_lt hdepth)
  show readValue (depth + 1) ('"' :: (value.toList.flatMap escape ++ ['"']) ++ rest) = _
  rw [List.cons_append, List.append_assoc]
  unfold readValue
  rw [skipBlanks_cons rfl]
  show (text? _).map _ = _
  rw [List.singleton_append, text?_escaped]
  rfl

theorem readBack_ofNat (n : Nat) : ReadBack (.ofNat n) := by
  intro level depth rest hends hdepth
  obtain ⟨c, more, hdigits, hdigit⟩ := exists_toDigits_eq_cons n
  have hnumber := number?_toDigits hends n
  change (Nat.toDigits 10 n).length ≤ depth at hdepth
  show readValue depth (Nat.toDigits 10 n ++ rest) = some (.number (Nat.toDigits 10 n), rest)
  rw [hdigits] at hdepth hnumber ⊢
  obtain ⟨depth, rfl⟩ := Nat.exists_eq_add_one_of_ne_zero (Nat.ne_zero_of_lt hdepth)
  unfold readValue
  rw [List.cons_append, skipBlanks_cons (isBlank_of_isDigit hdigit)]
  -- no other value begins with a digit
  split
  case h_7 => rw [← List.cons_append, hnumber]; rfl
  all_goals
    next heq =>
    obtain ⟨rfl, -⟩ := List.cons.inj heq
    cases hdigit

/-! ### Arrays and objects -/

theorem separated_cons_cons (separator first second : List Char) (more : List (List Char)) :
    separated separator (first :: second :: more) = first ++ (separator ++ separated separator (second :: more)) := by
  rw [separated, List.intercalate_cons_cons, List.append_assoc, separated]

theorem separated_append (separator first second : List Char) (more : List (List Char)) (rest : List Char) :
    separated separator (first :: second :: more) ++ rest =
      first ++ (separator ++ (separated separator (second :: more) ++ rest)) := by
  rw [separated_cons_cons, List.append_assoc, List.append_assoc]

theorem separated_singleton (separator only : List Char) : separated separator [only] = only :=
  List.intercalate_singleton

theorem readItems_eq {value : Json} (hvalue : ReadBack value) {level depth : Nat}
    (hdepth : (prettyChars level value).length ≤ depth) (done : List Json) {input : List Char}
    (hends : EndsNumber input) :
    readItems (depth + 1) done (newline level ++ prettyChars level value ++ input) =
      match skipBlanks input with
      | ',' :: rest => readItems depth (value :: done) rest
      | ']' :: rest => some ((value :: done).reverse, rest)
      | _ => none := by
  rewrite [readItems, List.append_assoc, readValue_append fun _ => isBlank_of_mem_newline, hvalue hends hdepth]
  rfl

theorem readItems_prettyItems {item : Json} {items : List Json} (hitems : ∀ value ∈ item :: items, ReadBack value)
    {level depth : Nat} (hdepth : (separated [','] (prettyItems level (item :: items))).length ≤ depth)
    (outer : Nat) (done : List Json) (rest : List Char) :
    readItems depth done (separated [','] (prettyItems level (item :: items)) ++ (newline outer ++ ']' :: rest)) =
      some (done.reverse ++ item :: items, rest) := by
  -- every item takes one step of the depth, and a line break at least is gone from the text
  induction items generalizing item depth done with
  | nil =>
    rw [prettyItems, prettyItems, separated_singleton] at hdepth ⊢
    rw [List.length_append, newline, List.length_cons] at hdepth
    obtain ⟨depth, rfl⟩ := Nat.exists_eq_add_one_of_ne_zero (n := depth) (by omega)
    rw [readItems_eq (hitems item List.mem_cons_self) (by omega) done (endsNumber_newline outer _),
      skipBlanks_newline, skipBlanks_cons rfl]
    show some ((item :: done).reverse, rest) = _
    rw [List.reverse_cons]
  | cons next items ih =>
    rw [prettyItems, prettyItems] at hdepth ⊢
    rw [separated_cons_cons, ← prettyItems] at hdepth
    simp only [List.length_append, List.length_cons] at hdepth
    obtain ⟨depth, rfl⟩ := Nat.exists_eq_add_one_of_ne_zero (n := depth) (by omega)
    rw [separated_append, ← prettyItems, readItems_eq (hitems item List.mem_cons_self) (by omega) done
      (endsNumber_comma _), List.singleton_append, skipBlanks_cons rfl]
    show readItems depth (item :: done) _ = _
    rw [ih (fun value hvalue => hitems value (List.mem_cons_of_mem _ hvalue)) (by omega), List.reverse_cons,
      List.append_assoc]
    rfl

theorem exists_separated_eq_append (separator first : List Char) (more : List (List Char)) :
    ∃ rest, separated separator (first :: more) = first ++ rest := by
  cases more with
  | nil => exact ⟨[], by rw [separated_singleton, List.append_nil]⟩
  | cons second more => exact ⟨_, separated_cons_cons separator first second more⟩

theorem readValue_cons_array (depth : Nat) (input : List Char) :
    readValue (depth + 1) ('[' :: input) =
      match skipBlanks input with
      | ']' :: rest => some (array [], rest)
      | _ => (readItems depth [] input).map fun (items, rest) => (array items, rest) := by
  unfold readValue
  rw [skipBlanks_cons rfl]
  rfl

theorem readBack_array {items : List Json} (hplain : ∀ item ∈ items, Plain item)
    (hitems : ∀ item ∈ items, ReadBack item) : ReadBack (.array items) := by
  intro level depth rest _ hdepth
  cases items with
  | nil =>
    obtain ⟨depth, rfl⟩ := Nat.exists_eq_add_one_of_ne_zero (Nat.ne_zero_of_lt hdepth)
    rfl
  | cons item items =>
    rw [prettyChars, List.length_cons, List.length_append, List.length_append] at hdepth
    obtain ⟨depth, rfl⟩ := Nat.exists_eq_add_one_of_ne_zero (Nat.ne_zero_of_lt hdepth)
    have hsize : (separated [','] (prettyItems (level + 1) (item :: items))).length ≤ depth := by omega
    have hread := readItems_prettyItems hitems hsize level [] rest
    obtain ⟨others, hfirst⟩ := exists_separated_eq_append [','] (newline (level + 1) ++ prettyChars (level + 1) item)
      (prettyItems (level + 1) items)
    obtain ⟨c, more, hhead, hblank, hclose⟩ := (hplain item List.mem_cons_self).exists_prettyChars_eq_cons (level + 1)
    rw [prettyChars, List.cons_append, List.append_assoc, List.append_assoc, List.singleton_append]
    rw [prettyItems, hfirst, hhead, List.append_assoc, List.append_assoc, List.cons_append] at hread ⊢
    rw [readValue_cons_array, skipBlanks_newline, skipBlanks_cons hblank]
    split
    · next heq => exact absurd (List.cons.inj heq).1 hclose
    · rw [hread]
      rfl

theorem readMembers_eq {name : String} {value : Json} (hvalue : ReadBack value) {level depth : Nat}
    (hdepth : (prettyChars level value).length ≤ depth) (done : List (Option String × Json)) {input : List Char}
    (hends : EndsNumber input) :
    readMembers (depth + 1) done (newline level ++ quote name ++ [':', ' '] ++ prettyChars level value ++ input) =
      match skipBlanks input with
      | ',' :: rest => readMembers depth ((some name, value) :: done) rest
      | '\x7d' :: rest => some (((some name, value) :: done).reverse, rest)
      | _ => none := by
  have hblank : ∀ c ∈ [' '], isBlank c := List.forall_mem_singleton.mpr rfl
  have hread := readValue_append hblank depth (prettyChars level value ++ input)
  rw [hvalue hends hdepth, List.singleton_append] at hread
  simp only [List.append_assoc, quote, List.cons_append, List.nil_append]
  rw [readMembers, skipBlanks_newline, skipBlanks_cons rfl]
  split
  · next rest heq =>
    cases heq
    rw [text?_escaped]
    dsimp only
    rw [skipBlanks_cons rfl]
    split
    · next rest heq =>
      cases heq
      rewrite [hread]
      rfl
    · next hne => exact absurd rfl (hne _)
  · next hne => exact absurd rfl (hne _)

/-- The members as they are read, each with its whole name. -/
def named (members : List (String × Json)) : List (Option String × Json) :=
  members.map fun entry => (some entry.1, entry.2)

theorem readMembers_prettyMembers {entry : String × Json} {members : List (String × Json)}
    (hmembers : ∀ member ∈ entry :: members, ReadBack member.2) {level depth : Nat}
    (hdepth : (separated [','] (prettyMembers level (entry :: members))).length ≤ depth)
    (outer : Nat) (done : List (Option String × Json)) (rest : List Char) :
    readMembers depth done
        (separated [','] (prettyMembers level (entry :: members)) ++ (newline outer ++ '\x7d' :: rest)) =
      some (done.reverse ++ named (entry :: members), rest) := by
  induction members generalizing entry depth done with
  | nil =>
    rw [prettyMembers, prettyMembers, separated_singleton] at hdepth ⊢
    rw [List.length_append, List.length_append, List.length_cons] at hdepth
    obtain ⟨depth, rfl⟩ := Nat.exists_eq_add_one_of_ne_zero (n := depth) (by omega)
    rw [readMembers_eq (hmembers entry List.mem_cons_self) (by omega) done (endsNumber_newline outer _),
      skipBlanks_newline, skipBlanks_cons rfl]
    show some (((some entry.1, entry.2) :: done).reverse, rest) = _
    rw [List.reverse_cons]
    rfl
  | cons next members ih =>
    obtain ⟨nextName, nextValue⟩ := next
    rw [prettyMembers, prettyMembers] at hdepth ⊢
    rw [separated_cons_cons, ← prettyMembers] at hdepth
    simp only [List.length_append, List.length_cons] at hdepth
    obtain ⟨depth, rfl⟩ := Nat.exists_eq_add_one_of_ne_zero (n := depth) (by omega)
    rw [separated_append, ← prettyMembers, readMembers_eq (hmembers entry List.mem_cons_self) (by omega) done
      (endsNumber_comma _), List.singleton_append, skipBlanks_cons rfl]
    show readMembers depth ((some entry.1, entry.2) :: done) _ = _
    rw [ih (fun member hmember => hmembers member (List.mem_cons_of_mem _ hmember)) (by omega), List.reverse_cons,
      List.append_assoc]
    rfl

theorem ofMembers_named (members : List (String × Json)) : ofMembers (named members) = .object members := by
  have hwhole {f : Option String × Json → Option (String × Json)}
      (hf : ∀ entry : String × Json, f (some entry.1, entry.2) = some entry) :
      (named members).mapM f = some members := by
    induction members with
    | nil => rfl
    | cons entry members ih =>
      rw [named, List.map_cons, ← named, List.mapM_cons, hf, ih]
      rfl
  rw [ofMembers, hwhole fun _ => rfl]

theorem readValue_cons_object (depth : Nat) (input : List Char) :
    readValue (depth + 1) ('\x7b' :: input) =
      match skipBlanks input with
      | '\x7d' :: rest => some (object [], rest)
      | _ => (readMembers depth [] input).map fun (members, rest) => (ofMembers members, rest) := by
  unfold readValue
  rw [skipBlanks_cons rfl]
  rfl

theorem readBack_object {members : List (String × Json)} (hmembers : ∀ entry ∈ members, ReadBack entry.2) :
    ReadBack (.object members) := by
  intro level depth rest _ hdepth
  cases members with
  | nil =>
    obtain ⟨depth, rfl⟩ := Nat.exists_eq_add_one_of_ne_zero (Nat.ne_zero_of_lt hdepth)
    rfl
  | cons entry members =>
    rw [prettyChars, List.length_cons, List.length_append, List.length_append] at hdepth
    obtain ⟨depth, rfl⟩ := Nat.exists_eq_add_one_of_ne_zero (Nat.ne_zero_of_lt hdepth)
    have hsize : (separated [','] (prettyMembers (level + 1) (entry :: members))).length ≤ depth := by omega
    have hread := readMembers_prettyMembers hmembers hsize level [] rest
    obtain ⟨more, hname⟩ : ∃ more, skipBlanks (separated [','] (prettyMembers (level + 1) (entry :: members)) ++
        (newline level ++ '\x7d' :: rest)) = '"' :: more := by
      obtain ⟨others, hfirst⟩ := exists_separated_eq_append [',']
        (newline (level + 1) ++ quote entry.1 ++ [':', ' '] ++ prettyChars (level + 1) entry.2)
        (prettyMembers (level + 1) members)
      rw [prettyMembers, hfirst]
      simp only [List.append_assoc, skipBlanks_newline]
      exact ⟨_, skipBlanks_cons rfl _⟩
    rw [prettyChars, List.cons_append, List.append_assoc, List.append_assoc, List.singleton_append,
      readValue_cons_object, hname]
    show (readMembers depth [] _).map _ = _
    rw [hread]
    show some (ofMembers (named (entry :: members)), rest) = _
    rw [ofMembers_named]

theorem Plain.readBack {value : Json} (hplain : Plain value) : ReadBack value := by
  induction hplain with
  | null =>
    intro level depth rest _ hdepth
    obtain ⟨depth, rfl⟩ := Nat.exists_eq_add_one_of_ne_zero (Nat.ne_zero_of_lt hdepth)
    rfl
  | bool value =>
    intro level depth rest _ hdepth
    cases value <;>
    · obtain ⟨depth, rfl⟩ := Nat.exists_eq_add_one_of_ne_zero (Nat.ne_zero_of_lt hdepth)
      rfl
  | natural n => exact readBack_ofNat n
  | text value => exact readBack_text value
  | array hplain ih => exact readBack_array hplain ih
  | object _ ih => exact readBack_object ih

/-- What is written pretty is read back. -/
theorem parse?_pretty {value : Json} (hplain : Plain value) : parse? value.pretty = some value := by
  have hends : EndsNumber [] := fun c hc => by cases hc
  have hdepth : (prettyChars 0 value).length ≤ 2 * (prettyChars 0 value).length + 2 := by omega
  have hread := hplain.readBack hends hdepth
  rw [List.append_nil] at hread
  rw [parse?, pretty, String.toList_ofList, hread]
  rfl

end TapAccess.Json
