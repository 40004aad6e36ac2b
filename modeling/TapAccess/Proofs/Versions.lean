import TapAccess.Proofs.Bytes
import TapAccess.Versions

/-!
# Choosing a version

A list of versions is read back from its bytes, an odd byte behind it or not (`Versions.decodeOffer_encode_append`). So
what a reader settles on is the version that the endpoint prefers among those that both support.

An offer need not come from a list. `Versions.Offers` says which version stands at which place of any bytes: it is
spelled by two of them, the more significant one first, behind an even number of others. A reader settles on the first
one that it supports (`Versions.negotiate?_eq_some_iff`).
-/

namespace TapAccess

@[simp] theorem Version.toNat_encode (v : Version) : UInt16.ofNat (Version.encode v).toNat = v := by
  rw [← UInt16.toNat_inj, UInt16.toNat_ofNat', Version.encode, Octets.toNat_ofNat_of_lt v.toNat_lt]
  exact Nat.mod_eq_of_lt v.toNat_lt

namespace Versions

/-! ### Offers that were written -/

theorem length_encode (v : Versions) : v.encode.length = 2 * v.supported.length := by
  obtain ⟨supported⟩ := v
  show (supported.flatMap fun version => (Version.encode version).toList).length = 2 * supported.length
  induction supported with
  | nil => rfl
  | cons version supported ih =>
    rw [List.flatMap_cons, List.length_append, ih, Octets.length_toList, List.length_cons]
    omega

theorem decodeOffer_encode_append (v : Versions) (trailing : Option UInt8) :
    decodeOffer (v.encode ++ trailing.toList) = v.supported := by
  obtain ⟨supported⟩ := v
  unfold encode
  induction supported with
  | nil => cases trailing <;> rfl
  | cons version supported ih =>
    rw [List.flatMap_cons]
    have hvalue := Version.toNat_encode version
    obtain ⟨high, low, hbytes⟩ : ∃ high low, (Version.encode version).toList = [high, low] := ⟨_, _, rfl⟩
    rw [Octets.toNat, hbytes] at hvalue
    show decodeOffer ((Version.encode version).toList ++ _ ++ trailing.toList) = version :: supported
    rw [hbytes, List.append_assoc, List.cons_append, List.cons_append, List.nil_append, decodeOffer, ih, hvalue]

theorem decodeOffer_encode (v : Versions) : decodeOffer v.encode = v.supported := by
  have hread := v.decodeOffer_encode_append none
  rwa [Option.toList_none, List.append_nil] at hread

theorem negotiate?_encode (ours theirs : Versions) :
    ours.negotiate? theirs.encode = theirs.supported.find? fun version => ours.Supports version := by
  rw [negotiate?, decodeOffer_encode]

theorem negotiate?_encode_append (ours theirs : Versions) (trailing : Option UInt8) :
    ours.negotiate? (theirs.encode ++ trailing.toList) =
      theirs.supported.find? fun version => ours.Supports version := by
  rw [negotiate?, decodeOffer_encode_append]

theorem exists_negotiate? {ours theirs : Versions} {version : Version} (hours : ours.Supports version)
    (htheirs : theirs.Supports version) :
    ∃ negotiated, ours.negotiate? theirs.encode = some negotiated ∧ theirs.Supports negotiated := by
  rw [negotiate?_encode]
  have hsome : (theirs.supported.find? fun version => decide (ours.Supports version)).isSome := by
    rw [List.find?_isSome]
    exact ⟨version, htheirs, decide_eq_true hours⟩
  obtain ⟨negotiated, hfind⟩ := Option.isSome_iff_exists.mp hsome
  exact ⟨negotiated, hfind, List.mem_of_find?_eq_some hfind⟩

theorem negotiate?_encode_append_eq_none_iff (ours theirs : Versions) (trailing : Option UInt8) :
    ours.negotiate? (theirs.encode ++ trailing.toList) = none ↔
      ∀ version ∈ theirs.supported, version ∉ ours.supported := by
  rw [negotiate?_encode_append, List.find?_eq_none]
  constructor
  · intro hnone version htheirs hours
    exact hnone version htheirs (decide_eq_true hours)
  · intro hdisjoint version htheirs hours
    exact hdisjoint version htheirs (of_decide_eq_true hours)

/-! ### Any offer -/

/-- The two bytes behind the first `2 * i` ones spell the version. -/
def Offers (offer : Bytes) (i : Nat) (version : Version) : Prop :=
  ∃ high low, offer[2 * i]? = some high ∧ offer[2 * i + 1]? = some low ∧
    version.toNat = 256 * high.toNat + low.toNat

theorem toNat_pair (high low : UInt8) :
    (UInt16.ofNat (Bytes.toNat [high, low])).toNat = 256 * high.toNat + low.toNat := by
  have hhigh := high.toNat_lt
  have hlow := low.toNat_lt
  rw [UInt16.toNat_ofNat', Bytes.toNat_cons, Bytes.toNat_cons, Bytes.toNat]
  simp only [List.length_cons, List.length_nil, List.foldl_nil]
  omega

theorem getElem?_decodeOffer {offer : Bytes} {i : Nat} {version : Version} :
    (decodeOffer offer)[i]? = some version ↔ Offers offer i version := by
  unfold Offers
  induction offer using decodeOffer.induct generalizing i with
  | case1 high low rest ih =>
    rw [decodeOffer]
    cases i with
    | zero =>
      simp only [List.getElem?_cons_zero, Option.some.injEq, Nat.mul_zero, Nat.zero_add, List.getElem?_cons_succ]
      constructor
      · rintro rfl
        exact ⟨high, low, rfl, rfl, toNat_pair high low⟩
      · rintro ⟨high, low, rfl, rfl, hversion⟩
        rw [← UInt16.toNat_inj, toNat_pair, hversion]
    | succ i =>
      rw [List.getElem?_cons_succ, ih, Nat.mul_succ]
      simp only [List.getElem?_cons_succ]
  | case2 offer hshort =>
    have hnone : decodeOffer offer = [] := by
      unfold decodeOffer
      split
      · exact absurd rfl (hshort _ _ _)
      · rfl
    have hlength : offer.length ≤ 1 := by
      match offer with
      | [] | [_] => simp
      | high :: low :: rest => exact absurd rfl (hshort high low rest)
    rw [hnone, List.getElem?_nil, List.getElem?_eq_none (by omega : offer.length ≤ 2 * i + 1)]
    simp

theorem negotiate?_eq_some_iff {ours : Versions} {offer : Bytes} {version : Version} :
    ours.negotiate? offer = some version ↔
      ∃ i, Offers offer i version ∧ ours.Supports version ∧
        ∀ j < i, ∀ earlier, Offers offer j earlier → ¬ ours.Supports earlier := by
  rw [negotiate?, List.find?_eq_some_iff_getElem]
  constructor
  · rintro ⟨hsupports, i, hi, hversion, hearlier⟩
    refine ⟨i, getElem?_decodeOffer.mp (List.getElem?_eq_some_iff.mpr ⟨hi, hversion⟩), of_decide_eq_true hsupports,
      fun j hj earlier hoffers => ?_⟩
    obtain ⟨hlt, rfl⟩ := List.getElem?_eq_some_iff.mp (getElem?_decodeOffer.mpr hoffers)
    simpa using hearlier j hj
  · rintro ⟨i, hoffers, hsupports, hearlier⟩
    obtain ⟨hi, hversion⟩ := List.getElem?_eq_some_iff.mp (getElem?_decodeOffer.mpr hoffers)
    refine ⟨decide_eq_true hsupports, i, hi, hversion, fun j hj => ?_⟩
    have hoffered : Offers offer j (decodeOffer offer)[j] := getElem?_decodeOffer.mp (List.getElem?_eq_getElem _)
    simpa using hearlier j hj _ hoffered

theorem negotiate?_congr {ours others : Versions}
    (hsame : ∀ version, version ∈ others.supported ↔ version ∈ ours.supported) (offer : Bytes) :
    others.negotiate? offer = ours.negotiate? offer := by
  have hdecide (version : Version) : decide (others.Supports version) = decide (ours.Supports version) :=
    decide_eq_decide.mpr (hsame version)
  rw [negotiate?, negotiate?]
  simp only [hdecide]

end Versions

end TapAccess
