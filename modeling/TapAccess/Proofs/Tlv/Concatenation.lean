import TapAccess.Proofs.Tlv.Accepted

/-!
# Inputs behind one another

`parse_append`: behind an input that is accepted, any other input is read as if it stood alone. Its objects follow the
ones of the first input, and what is wrong with it is wrong with both together. So nothing that comes after a complete
message changes what the message is read as, although the children of its objects are read from all that is left: each
object is read from the bytes that it takes up, and the run on the second input goes on where the one on the first
ends (`ReadsAll.append`).
-/

namespace TapAccess.Tlv.Object

theorem encodeAll_append (before after : List Object) :
    encodeAll (before ++ after) = encodeAll before ++ encodeAll after := by
  induction before with
  | nil => rw [encodeAll, List.nil_append, List.nil_append]
  | cons object before ih => rw [List.cons_append, encodeAll, encodeAll, ih, List.append_assoc]

theorem ReadsAll.append {a b : Bytes} {before : List Object} {outcome : Except TlvError (List Object)}
    (ha : ReadsAll a (.ok before)) (hb : ReadsAll b outcome) : ReadsAll (a ++ b) (outcome.map (before ++ ·)) := by
  induction before generalizing a with
  | nil =>
    obtain rfl := readsAll_nil_iff.mp ha
    have hsame : outcome.map (([] : List Object) ++ ·) = outcome := by cases outcome <;> rfl
    rwa [hsame]
  | cons o more ih =>
    obtain ⟨after, hsome, hobject, hmore⟩ := readsAll_cons_iff.mp ha
    obtain ⟨used, rfl, hused⟩ := hobject.occupies
    have hfollowed : (used ++ after) ++ b ≠ [] := List.append_ne_nil_of_left_ne_nil hsome b
    have hall := ReadsAll.next hfollowed (by rw [List.append_assoc]; exact hused.reads (after ++ b)) (ih hmore)
    have hmap : (outcome.map (more ++ ·)).map (o :: ·) = outcome.map (o :: more ++ ·) := by cases outcome <;> rfl
    rwa [← hmap]

/-- An input behind one that is accepted is read as if it stood alone, and what is written for objects is written
for each of them. An object that is read takes up two bytes or more, and these are read as this object whatever follows
them. Reading ends for every input, and parsing comes to what it ends with. -/
theorem parse_append :
    (∀ (a b : Bytes) (before : List Object), parse a = .ok before →
      (∀ after : List Object, parse b = .ok after → parse (a ++ b) = .ok (before ++ after)) ∧
      ∀ e : ProtocolError, parse b = .error e → parse (a ++ b) = .error e) ∧
    (∀ before after : List Object, encodeAll (before ++ after) = encodeAll before ++ encodeAll after) ∧
    (∀ (input rest : Bytes) (o : Object), Reads input (.ok (o, rest)) →
      ∃ used, input = used ++ rest ∧ 2 ≤ used.length ∧ ∀ more : Bytes, Reads (used ++ more) (.ok (o, more))) ∧
    (∀ (input : Bytes) (outcome : Except TlvError (List Object)),
      ReadsAll input outcome ↔ parse input = outcome.mapError ProtocolError.tlv) := by
  refine ⟨fun a b before ha => ?_, encodeAll_append, fun input rest o hread => ?_, fun _ _ => readsAll_iff_parse⟩
  · have hfirst : ReadsAll a (.ok before) := readsAll_iff_parse.mpr ha
    have hboth (outcome : Except TlvError (List Object)) (hb : parse b = outcome.mapError ProtocolError.tlv) :
        parse (a ++ b) = (outcome.map (before ++ ·)).mapError ProtocolError.tlv :=
      readsAll_iff_parse.mp (hfirst.append (readsAll_iff_parse.mpr hb))
    refine ⟨fun after hb => hboth (.ok after) hb, fun e hb => ?_⟩
    obtain ⟨outcome, hall⟩ := exists_readsAll b
    have hparse := readsAll_iff_parse.mp hall
    have hsame := hboth outcome hparse
    rw [hparse] at hb
    cases outcome with
    | error cause => rw [hsame, ← hb]; rfl
    | ok after => cases hb
  · obtain ⟨used, hinput, hused⟩ := hread.occupies
    exact ⟨used, hinput, hused.two_le_length, hused.reads⟩

/-- The length that is announced for the outer object of `nested` ends before its bytes do. Whatever follows these
is read all the same: an object, or one that is cut off. -/
theorem parse_append_nested :
    parse (encodeAll [nested]) = .ok [nested] ∧
    parse (encodeAll [nested] ++ [0x41, 0x00]) = .ok [nested, ofValue 0x41 []] ∧
    parse (encodeAll [nested] ++ [0x4C, 0x05, 0x01]) = .error (.tlv .truncatedInput) ∧
    ∃ used, [0x41, 0x00, 0x05] = used ++ [0x05] ∧ 2 ≤ used.length ∧
      ∀ more : Bytes, Reads (used ++ more) (.ok (ofValue 0x41 [], more)) :=
  have hnested : parse (encodeAll [nested]) = .ok [nested] := parse_encodeAll ⟨built_nested.encodable, trivial⟩
  ⟨hnested, (parse_append.1 _ [0x41, 0x00] _ hnested).1 [ofValue 0x41 []] rfl,
    (parse_append.1 _ [0x4C, 0x05, 0x01] _ hnested).2 _ rfl,
    parse_append.2.2.1 [0x41, 0x00, 0x05] [0x05] (ofValue 0x41 []) (.primitive rfl rfl rfl)⟩

end TapAccess.Tlv.Object
