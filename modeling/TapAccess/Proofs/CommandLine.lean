import TapAccess.CommandLine
import TapAccess.Proofs.Json.Pretty
import TapAccess.Proofs.KeySchedule
import TapAccess.Proofs.Message.Requests

/-!
# Explaining a frame

A frame may be handed in with blanks around it, with a mark in front and with digits of either case. All that counts
is which request it carries, and everything that the request says can be told from the explanation
(`CommandLine.explain_exact`).
-/

namespace TapAccess

/-! ### Blanks -/

theorem Blank.trim_append {before core after : List Char} (hbefore : ∀ c ∈ before, isBlank c)
    (hcore : ∀ c ∈ core, isBlank c = false) (hafter : ∀ c ∈ after, isBlank c) :
    trim (before ++ core ++ after) = core := by
  have hkeep {text : List Char} (htext : ∀ c ∈ text, isBlank c = false) (more : List Char) (hne : text ≠ []) :
      (text ++ more).dropWhile isBlank = text ++ more := by
    obtain ⟨c, text, rfl⟩ := List.exists_cons_of_ne_nil hne
    exact List.dropWhile_cons_of_neg (Bool.not_eq_true _ ▸ htext c List.mem_cons_self)
  rw [trim, trimEnd, List.append_assoc, List.dropWhile_append_of_pos hbefore]
  by_cases hne : core = []
  · subst hne
    rw [List.nil_append, ← List.append_nil after, List.dropWhile_append_of_pos hafter]
    rfl
  · rw [hkeep hcore after hne, List.reverse_append,
      List.dropWhile_append_of_pos fun c hc => hafter c (List.mem_reverse.mp hc)]
    have hend := hkeep (fun c hc => hcore c (List.mem_reverse.mp hc)) [] (List.reverse_ne_nil_iff.mpr hne)
    rw [List.append_nil] at hend
    rw [hend, List.reverse_reverse]

theorem Hex.isBlank_of_digit {c : Char} {value : Nat} (hvalue : digitOfChar? c = some value) : Blank.isBlank c = false := by
  have hdigit : digitOfChar? c ≠ none := by
    rw [hvalue]
    exact Option.some_ne_none value
  revert hdigit
  exact ascii_cases (P := fun c => digitOfChar? c ≠ none → Blank.isBlank c = false) (by decide)
    (digit_of_digitOfChar? hvalue).1

/-! ### Fields as they are shown -/

theorem Hex.word16_inj {first second : UInt16} (hsame : word16 first = word16 second) : first = second :=
  Version.encode_inj.mp (Octets.ext (encodeUpper_inj hsame))

theorem Octets.shown_inj {n : Nat} {first second : Octets n} (hsame : first.shown = second.shown) : first = second :=
  Octets.ext (Hex.encodeUpper_inj hsame)

theorem ReaderIdentifier.shown_inj {first second : ReaderIdentifier} (hsame : first.shown = second.shown) :
    first = second := by
  have hshown (r : ReaderIdentifier) : r.shown = r.encode.shown := by
    show Hex.encodeUpper r.group.toList ++ Hex.encodeUpper r.subGroup.toList =
      Hex.encodeUpper (r.group.toList ++ r.subGroup.toList)
    rw [Hex.encodeUpper, Hex.encodeUpper, Hex.encodeUpper, Hex.encodeChars_append, List.map_append, String.ofList_append]
  rw [hshown, hshown] at hsame
  exact ReaderIdentifier.encode_inj.mp (Octets.shown_inj hsame)

theorem PublicKey.encode_inj {first second : PublicKey} (hsame : first.encode.toList = second.encode.toList) :
    first = second := by
  have hread := first.parse_encode
  rw [hsame, second.parse_encode, Except.ok.injEq] at hread
  exact hread.symm

theorem TransactionCode.byte_inj {first second : TransactionCode} (hfirst : first.Canonical)
    (hsecond : second.Canonical) (hsame : first.byte = second.byte) : first = second := by
  rw [← hfirst, ← hsecond, hsame]

namespace CommandLine

/-! ### Handing in a frame -/

/-- A way to spell bytes: digits in either case, perhaps behind a mark, and blanks around. -/
structure Spelling (bytes : Bytes) where
  before : List Char
  marked : Bool
  digits : List Char
  after : List Char
  blank_before : ∀ c ∈ before, Blank.isBlank c
  blank_after : ∀ c ∈ after, Blank.isBlank c
  spells : Hex.Spells digits bytes

def mark (marked : Bool) : List Char := if marked then ['0', 'x'] else []

def Spelling.text {bytes : Bytes} (s : Spelling bytes) : String :=
  String.ofList (s.before ++ (mark s.marked ++ s.digits) ++ s.after)

theorem dropMark_mark {digits : List Char} {bytes : Bytes} (hspells : Hex.Spells digits bytes) (marked : Bool) :
    dropMark (mark marked ++ digits) = digits := by
  -- the second character of a mark is no digit, so that digits are not taken for one
  cases marked with
  | true => rfl
  | false =>
    show dropMark digits = digits
    unfold dropMark
    split
    · obtain ⟨value, hvalue⟩ := hspells.isDigit 'x' (List.mem_cons_of_mem _ List.mem_cons_self)
      cases hvalue
    · rfl

theorem isBlank_of_mem_mark {marked : Bool} {c : Char} (hc : c ∈ mark marked) : Blank.isBlank c = false := by
  cases marked with
  | true =>
    have hmarks : ∀ c ∈ ['0', 'x'], Blank.isBlank c = false :=
      List.forall_mem_cons.mpr ⟨rfl, List.forall_mem_singleton.mpr rfl⟩
    exact hmarks c hc
  | false => cases hc

theorem decode_text {bytes : Bytes} (s : Spelling bytes) :
    Hex.decode (String.ofList (dropMark (Blank.trim s.text.toList))) = .ok bytes := by
  have hcore : ∀ c ∈ mark s.marked ++ s.digits, Blank.isBlank c = false := by
    intro c hc
    rcases List.mem_append.mp hc with hmark | hdigit
    · exact isBlank_of_mem_mark hmark
    · obtain ⟨value, hvalue⟩ := s.spells.isDigit c hdigit
      exact Hex.isBlank_of_digit hvalue
  rw [Spelling.text, String.toList_ofList, Blank.trim_append s.blank_before hcore s.blank_after,
    dropMark_mark s.spells, Hex.decode_of_spells s.spells]

theorem explain_text {r : Request} (hcanonical : r.Canonical) (hshort : r.toCommand.data.length ≤ 65535)
    (s : Spelling r.encode) : explain s.text = .ok (requestJson r) := by
  rw [explain, decode_text]
  show (Request.decode r.encode).mapError _ >>= _ = _
  rw [Request.decode_of_short hshort, Request.named_of_canonical hcanonical]
  rfl

/-! ### Telling requests apart -/

theorem hexJson_inj {first second : Bytes} (hsame : hexJson first = hexJson second) : first = second :=
  Hex.encode_inj (Json.text.inj hsame)

theorem optionalHexJson_inj {first second : Option Bytes} (hsame : optionalHexJson first = optionalHexJson second) :
    first = second := by
  cases first <;> cases second
  · rfl
  · cases hsame
  · cases hsame
  · exact congrArg some (hexJson_inj hsame)

theorem byteJson_inj {first second : UInt8} (hsame : Json.ofNat first.toNat = Json.ofNat second.toNat) : first = second :=
  UInt8.toNat_inj.mp (Json.ofNat_inj hsame)

theorem requestJson_inj {first second : Request} (hfirst : first.Canonical) (hsecond : second.Canonical)
    (hsame : requestJson first = requestJson second) : first = second := by
  -- the names of the members, and of the command, tell one kind of request from another
  cases first <;> cases second <;>
    simp only [requestJson, Json.object.injEq, List.cons.injEq, Prod.mk.injEq, String.reduceEq, reduceCtorEq,
      Json.text.injEq, Json.bool.injEq, true_and, and_true, false_and, and_false] at hsame
  case select.select c c' =>
    cases c
    cases c'
    rw [Request.select.injEq, SelectCommand.mk.injEq]
    exact hexJson_inj hsame
  case auth0.auth0 c c' =>
    cases c
    cases c'
    obtain ⟨hfast, hversion, hephemeral, hreader, hcode, htransaction⟩ := hsame
    rw [Request.auth0.injEq, Auth0Command.mk.injEq]
    exact ⟨hfast, TransactionCode.byte_inj hfirst hsecond (byteJson_inj hcode), Hex.word16_inj hversion,
      PublicKey.encode_inj (hexJson_inj hephemeral), Octets.shown_inj htransaction, ReaderIdentifier.shown_inj hreader⟩
  case auth1.auth1 c c' =>
    cases c
    cases c'
    obtain ⟨hcertificate, hrequested, hsignature⟩ := hsame
    rw [Request.auth1.injEq, Auth1Command.mk.injEq]
    exact ⟨hrequested, Octets.ext (hexJson_inj hsignature), optionalHexJson_inj hcertificate⟩
  case controlFlow.controlFlow c c' =>
    cases c
    cases c'
    obtain ⟨hdata, hs1, hs2⟩ := hsame
    rw [Request.controlFlow.injEq, ControlFlowCommand.mk.injEq]
    exact ⟨byteJson_inj hs1, byteJson_inj hs2, optionalHexJson_inj hdata⟩

theorem plain_optionalHexJson (bytes : Option Bytes) : Json.Plain (optionalHexJson bytes) := by
  cases bytes with
  | none => exact .null
  | some bytes => exact .text _

theorem plain_requestJson (r : Request) : Json.Plain (requestJson r) := by
  cases r <;> refine .object ?_ <;>
    simp only [List.forall_mem_cons, List.not_mem_nil, false_implies, implies_true, and_true]
  case select c => exact ⟨.text _, .text _⟩
  case auth0 c => exact ⟨.text _, .bool _, .text _, .text _, .text _, .natural _, .text _⟩
  case auth1 c => exact ⟨plain_optionalHexJson _, .text _, .bool _, .text _⟩
  case controlFlow c => exact ⟨.text _, plain_optionalHexJson _, .natural _, .natural _⟩

/-- An explanation is the request's own, however its frame is spelled, and is no other request's. It can be read back
from what is printed. -/
theorem explain_exact {r : Request} (hcanonical : r.Canonical) (hshort : r.toCommand.data.length ≤ 65535)
    (s : Spelling r.encode) :
    explain s.text = .ok (requestJson r) ∧ Json.parse? (requestJson r).pretty = some (requestJson r) ∧
    ∀ {other : Request} (t : Spelling other.encode), other.Canonical → other.toCommand.data.length ≤ 65535 →
      (explain t.text = explain s.text ↔ other = r) := by
  have hexplain := explain_text hcanonical hshort s
  refine ⟨hexplain, Json.parse?_pretty (plain_requestJson r), fun {other} t hother hotherShort => ?_⟩
  rw [hexplain, explain_text hother hotherShort t, Except.ok.injEq]
  constructor
  · exact requestJson_inj hother hcanonical
  · intro hsame
    rw [hsame]

/-- A notification without data. -/
def noData : Request := .controlFlow ⟨0x40, 0xA0, none⟩

/-- A notification with data that is empty. -/
def emptyData : Request := .controlFlow ⟨0x40, 0xA0, some []⟩

def noDataSpelled : Spelling noData.encode where
  before := []
  marked := false
  digits := "803c0000064101404201a0".toList
  after := []
  blank_before := nofun
  blank_after := nofun
  spells := by decide +kernel

def emptyDataSpelled : Spelling emptyData.encode where
  before := [' ', '\u2003']
  marked := true
  digits := "803C0000084101404201a04300".toList
  after := ['\n']
  blank_before := List.forall_mem_cons.mpr ⟨rfl, List.forall_mem_singleton.mpr rfl⟩
  blank_after := List.forall_mem_singleton.mpr rfl
  spells := by decide +kernel

/-- Data that is empty is shown as a text, and data that is missing is not. -/
theorem explain_exact_emptyData :
    emptyData.Canonical ∧ emptyData.toCommand.data.length ≤ 65535 ∧
    explain emptyDataSpelled.text = .ok (.object [
      ("command", .text "CONTROL_FLOW"),
      ("domain_specific_data", .text ""),
      ("s1", .number ['6', '4']),
      ("s2", .number ['1', '6', '0'])]) ∧
    explain noDataSpelled.text ≠ explain emptyDataSpelled.text := by
  have hexact := explain_exact (r := emptyData) trivial (by decide) emptyDataSpelled
  refine ⟨trivial, by decide, hexact.1, fun hsame => ?_⟩
  cases (hexact.2.2 noDataSpelled trivial (by decide)).mp hsame

end CommandLine

end TapAccess
