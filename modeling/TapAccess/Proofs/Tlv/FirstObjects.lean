import Mathlib.Logic.Relation
import TapAccess.Proofs.Tlv.Sliced

/-!
# The first object of a tag

A message takes each of its fields from the first object with the field's tag. `ReadsOnly tags read` says that `read`
comes to the same, a value or an error, on any two lists in which the first objects of these tags are the same
(`SameFirst`); what is put together from look-ups of these tags reads only them. Then nothing else in the list matters:
neither the order in which objects of different tags stand, nor objects of other tags, nor further objects of a tag
that has occurred (`Rearrangement`).

`dependsOnFirst_of_readsOnly` takes this down to the bytes.
-/

namespace TapAccess.Tlv

theorem Tag.ext {a b : Tag} (hbytes : a.bytes = b.bytes) : a = b := by
  cases a
  cases b
  cases hbytes
  rfl

namespace Object

/-! ### Look-ups -/

/-- The first object whose tag is this byte. -/
def first (tag : UInt8) (objects : List Object) : Option Object := objects.find? fun o => o.tag.bytes = [tag]

theorem find?_eq_first (objects : List Object) (tag : UInt8) : find? objects tag = first tag objects := by
  unfold find? first Tag.ofByte?
  by_cases htag : IsTag [tag] = true
  · rw [dif_pos htag]
    dsimp only
    congr 1
    funext o
    exact decide_eq_decide.mpr ⟨fun hsame => by rw [hsame], fun hbytes => Tag.ext hbytes⟩
  · rw [dif_neg htag]
    refine (List.find?_eq_none.mpr fun o _ hbytes => htag ?_).symm
    rw [← of_decide_eq_true hbytes]
    exact o.tag.isTag

/-- The first objects of these tags are the same, or there are none. -/
def SameFirst (tags : List UInt8) (xs ys : List Object) : Prop := ∀ tag ∈ tags, first tag xs = first tag ys

/-- What is read depends only on the first objects of these tags. -/
def ReadsOnly {α : Type} (tags : List UInt8) (read : List Object → Except ProtocolError α) : Prop :=
  ∀ xs ys, SameFirst tags xs ys → read xs = read ys

section

variable {α β : Type} {tags : List UInt8} {tag : UInt8}

theorem readsOnly_const (outcome : Except ProtocolError α) : ReadsOnly tags fun _ => outcome := fun _ _ _ => rfl

theorem readsOnly_require (htag : tag ∈ tags) : ReadsOnly tags fun objects => require objects tag := by
  intro xs ys hsame
  simp only [require, find?_eq_first, hsame tag htag]

theorem readsOnly_optionalValue (htag : tag ∈ tags) : ReadsOnly tags fun objects => optionalValue objects tag := by
  intro xs ys hsame
  simp only [optionalValue, find?_eq_first, hsame tag htag]

theorem readsOnly_bind {f : List Object → Except ProtocolError α} {g : α → List Object → Except ProtocolError β}
    (hf : ReadsOnly tags f) (hg : ∀ a, ReadsOnly tags (g a)) :
    ReadsOnly tags fun objects => f objects >>= fun a => g a objects := by
  intro xs ys hsame
  show f xs >>= _ = f ys >>= _
  rw [hf xs ys hsame]
  congr 1
  funext a
  exact hg a xs ys hsame

theorem readsOnly_field {take : Object → Except ProtocolError α} {g : α → List Object → Except ProtocolError β}
    (htag : tag ∈ tags) (hg : ∀ a, ReadsOnly tags (g a)) :
    ReadsOnly tags fun objects => require objects tag >>= fun o => take o >>= fun a => g a objects :=
  readsOnly_bind (readsOnly_require htag) fun _ => readsOnly_bind (readsOnly_const _) hg

end

/-! ### Rearrangements -/

/-- One way in which a list of objects can be changed without the first objects of the tags being others. -/
inductive Rearrangement (tags : List UInt8) : List Object → List Object → Prop
  /-- The objects of each tag stay in their order. -/
  | reordered {xs ys : List Object}
      (hsame : ∀ bytes : Bytes, xs.filter (fun o => o.tag.bytes = bytes) = ys.filter fun o => o.tag.bytes = bytes) :
      Rearrangement tags xs ys
  /-- An object with another tag comes in anywhere. -/
  | inserted (before after : List Object) (o : Object) (hforeign : ∀ tag ∈ tags, o.tag.bytes ≠ [tag]) :
      Rearrangement tags (before ++ after) (before ++ o :: after)
  /-- An object comes in somewhere behind one with its tag. -/
  | repeated (before after : List Object) (o : Object) (hknown : ∃ known ∈ before, known.tag = o.tag) :
      Rearrangement tags (before ++ after) (before ++ o :: after)

variable {tags : List UInt8} {xs ys : List Object}

theorem Rearrangement.swapped (before after : List Object) {a b : Object} (hdifferent : a.tag ≠ b.tag) :
    Rearrangement tags (before ++ a :: b :: after) (before ++ b :: a :: after) := by
  refine .reordered fun bytes => ?_
  by_cases ha : a.tag.bytes = bytes
  · have hb : b.tag.bytes ≠ bytes := fun hb => hdifferent (Tag.ext (ha.trans hb.symm))
    simp [List.filter_cons, hb]
  · simp [List.filter_cons, ha]

theorem Rearrangement.sameFirst (hstep : Rearrangement tags xs ys) : SameFirst tags xs ys := by
  intro tag htag
  unfold first
  cases hstep with
  | reordered hsame => rw [← List.head?_filter, ← List.head?_filter, hsame [tag]]
  | inserted before after o hforeign =>
    have hskip : (o :: after).find? (fun o => decide (o.tag.bytes = [tag])) =
        after.find? fun o => o.tag.bytes = [tag] := List.find?_cons_of_neg (by simp [hforeign tag htag])
    rw [List.find?_append, List.find?_append, hskip]
  | repeated before after o hknown =>
    obtain ⟨known, hmem, hsame⟩ := hknown
    by_cases ho : o.tag.bytes = [tag]
    · -- the search ends before it comes to the object
      have hfound : (before.find? fun o => decide (o.tag.bytes = [tag])).isSome := by
        rw [List.find?_isSome]
        exact ⟨known, hmem, by simp [hsame, ho]⟩
      obtain ⟨found, hfound⟩ := Option.isSome_iff_exists.mp hfound
      rw [List.find?_append, List.find?_append, hfound, Option.some_or, Option.some_or]
    · have hskip : (o :: after).find? (fun o => decide (o.tag.bytes = [tag])) =
          after.find? fun o => o.tag.bytes = [tag] := List.find?_cons_of_neg (by simp [ho])
      rw [List.find?_append, List.find?_append, hskip]

theorem sameFirst_of_rearranged (hrearranged : Relation.EqvGen (Rearrangement tags) xs ys) : SameFirst tags xs ys := by
  induction hrearranged with
  | rel xs ys hstep => exact hstep.sameFirst
  | refl xs => exact fun _ _ => rfl
  | symm xs ys _ ih => exact fun tag htag => (ih tag htag).symm
  | trans xs ys zs _ _ ihxy ihyz => exact fun tag htag => (ihxy tag htag).trans (ihyz tag htag)

/-! ### Bytes -/

theorem parse_of_contents {objects : List Object} (hcontents : ∀ o ∈ objects, o.contents.length < 2 ^ 32) :
    parse (encodeAll objects) = .ok objects :=
  parse_encodeAll (allEncodable_iff.mpr fun o hmem => encodable_of_contents (hcontents o hmem))

/-- What is read from the bytes of objects, each with contents below 2^32 bytes, depends only on the first objects of
these tags, and no rearrangement changes it. -/
structure DependsOnFirst {α : Type} (tags : List UInt8) (read : Bytes → Except ProtocolError α) : Prop where
  sameFirst : ∀ xs ys, (∀ o ∈ xs, o.contents.length < 2 ^ 32) → (∀ o ∈ ys, o.contents.length < 2 ^ 32) →
    SameFirst tags xs ys → read (encodeAll xs) = read (encodeAll ys)
  rearranged : ∀ xs ys, (∀ o ∈ xs, o.contents.length < 2 ^ 32) → (∀ o ∈ ys, o.contents.length < 2 ^ 32) →
    Relation.EqvGen (Rearrangement tags) xs ys → read (encodeAll xs) = read (encodeAll ys)

theorem dependsOnFirst_of_readsOnly {α : Type} {read : Bytes → Except ProtocolError α}
    {ofObjects : List Object → Except ProtocolError α} (honly : ReadsOnly tags ofObjects)
    (hread : ∀ bytes, read bytes = parse bytes >>= ofObjects) : DependsOnFirst tags read := by
  have hsameFirst (xs ys : List Object) (hxs : ∀ o ∈ xs, o.contents.length < 2 ^ 32)
      (hys : ∀ o ∈ ys, o.contents.length < 2 ^ 32) (hsame : SameFirst tags xs ys) :
      read (encodeAll xs) = read (encodeAll ys) := by
    rw [hread, hread, parse_of_contents hxs, parse_of_contents hys]
    exact honly xs ys hsame
  exact ⟨hsameFirst, fun xs ys hxs hys hrearranged => hsameFirst xs ys hxs hys (sameFirst_of_rearranged hrearranged)⟩

end Object

end TapAccess.Tlv
