import TapAccess.Crypto.Reported
import TapAccess.Proofs.Bytes
import TapAccess.Proofs.Crypto.Group

/-!
# Two holders of key pairs

A public key is the multiple of the generator that its private key says (`point_publicKey`). Two parties
therefore derive the same secret, each from its own private key and the other's public key (`agree_comm`), and
what is signed with a key pair verifies under its public key (`verify_make`).
-/

namespace TapAccess

open P256

/-! ### Public keys as points -/

namespace PublicKey

def point (k : PublicKey) : P256.Group :=
  .some (k.x : P256.Field) (k.y : P256.Field) (nonsingular_of_equation (equation_of_onCurve k.onCurve))

theorem standsFor_toJacobian (k : PublicKey) : StandsFor k.toJacobian k.point :=
  standsFor_ofAffine k.x_lt k.y_lt _

end PublicKey

namespace PrivateKey

theorem value_lt (k : PrivateKey) : k.value < 2 ^ 256 := Nat.lt_trans k.lt_order n_bounds.2

theorem nsmul_base_ne_zero (k : PrivateKey) : k.value • base ≠ 0 := by
  rw [Ne, nsmul_base_eq_zero_iff]
  intro hdvd
  exact absurd (Nat.le_of_dvd k.pos hdvd) (Nat.not_le.mpr k.lt_order)

theorem standsFor_multiple_generator (k : PrivateKey) :
    StandsFor (P256.generator.multiple 256 k.value) (k.value • base) :=
  standsFor_multiple_of_lt standsFor_generator k.value_lt

theorem exists_coordinates? (k : PrivateKey) : ∃ x y, coordinates? (k.value • base) = some (x, y) ∧
    x < p ∧ y < p ∧ OnCurve x y := by
  have hne := k.nsmul_base_ne_zero
  generalize k.value • base = P at hne
  cases P with
  | zero => exact absurd rfl hne
  | some x y h =>
    refine ⟨x.val, y.val, rfl, ZMod.val_lt x, ZMod.val_lt y, ?_⟩
    refine onCurve_of_equation ?_
    rw [natCast_val, natCast_val]
    exact h.1

theorem point_publicKey (k : PrivateKey) : k.publicKey.point = k.value • base := by
  obtain ⟨x, y, hcoordinates, hx, hy, hcurve⟩ := k.exists_coordinates?
  have haffine := toAffine?_of_standsFor k.standsFor_multiple_generator
  rw [hcoordinates] at haffine
  have hkey : k.publicKey = ⟨x, y, hx, hy, hcurve⟩ := by
    have hread : PublicKey.ofCoordinates? x y = some ⟨x, y, hx, hy, hcurve⟩ := dif_pos ⟨hx, hy, hcurve⟩
    unfold publicKey
    rw [haffine, Option.bind_some]
    dsimp only
    rw [hread, Option.getD_some]
  obtain ⟨h, hpoint, -, -⟩ := coordinates?_eq_some_iff.mp hcoordinates
  rw [hkey, hpoint]
  rfl

/-! ### Agreeing on a secret -/

theorem toAffine?_multiple_publicKey (a b : PrivateKey) :
    (b.publicKey.toJacobian.multiple 256 a.value).toAffine? = coordinates? ((b.value * a.value) • base) := by
  rw [toAffine?_of_standsFor (standsFor_multiple_of_lt b.publicKey.standsFor_toJacobian a.value_lt),
    point_publicKey, mul_nsmul]

theorem sharedAbscissa_comm (a b : PrivateKey) :
    a.sharedAbscissa b.publicKey = b.sharedAbscissa a.publicKey := by
  rw [sharedAbscissa, sharedAbscissa, toAffine?_multiple_publicKey, toAffine?_multiple_publicKey,
    Nat.mul_comm]

theorem agree_comm (a b : PrivateKey) (transaction : Bytes) :
    a.agree b.publicKey transaction = b.agree a.publicKey transaction := by
  rw [agree, agree, sharedAbscissa_comm]

end PrivateKey

/-! ### Signatures -/

namespace Signature

variable {key nonce : PrivateKey} {message : Bytes} {signature : Signature}

theorem withNonce?_eq_some_iff : withNonce? key nonce message = some signature ↔ ∃ x y r s,
    coordinates? (nonce.value • base) = some (x, y) ∧ r = x % n ∧
    s = invMod n nonce.value * (hashScalar message + r * key.value) % n ∧ r ≠ 0 ∧ s ≠ 0 ∧
    signature = (Octets.ofNat 32 r).append (.ofNat 32 s) := by
  unfold withNonce?
  rw [toAffine?_of_standsFor nonce.standsFor_multiple_generator]
  cases coordinates? (nonce.value • base) with
  | none => simp
  | some both =>
    obtain ⟨x, y⟩ := both
    dsimp only
    by_cases hzero : x % n = 0 ∨ invMod n nonce.value * (hashScalar message + x % n * key.value) % n = 0
    · rw [if_pos hzero]
      simp only [reduceCtorEq, Option.some.injEq, Prod.mk.injEq, false_iff, not_exists]
      rintro _ _ r s ⟨⟨rfl, rfl⟩, rfl, rfl, hr, hs, -⟩
      exact hzero.elim hr hs
    · rw [if_neg hzero, Option.some.injEq]
      rw [not_or] at hzero
      constructor
      · rintro rfl
        exact ⟨x, y, _, _, rfl, rfl, rfl, hzero.1, hzero.2, rfl⟩
      · rintro ⟨_, _, r, s, hcoordinates, rfl, rfl, -, -, rfl⟩
        rw [Option.some.injEq, Prod.mk.injEq] at hcoordinates
        rw [hcoordinates.1]

/-- The point that the verifier computes is the one that the signer has started from. -/
theorem verification_point {z r s : Nat} (hs : s = invMod n nonce.value * (z + r * key.value) % n)
    (hne : s ≠ 0) :
    (z * invMod n s % n) • base + (r * invMod n s % n) • (key.value • base) = nonce.value • base := by
  have hlow : s < n := by rw [hs]; exact Nat.mod_lt _ (Nat.lt_trans (by decide) n_bounds.1)
  have hunit : (s : ZMod n) ≠ 0 := by
    rw [Ne, ZMod.natCast_eq_zero_iff]
    intro hdvd
    exact hne (Nat.eq_zero_of_dvd_of_lt hdvd hlow)
  have hnonce : (nonce.value : ZMod n) ≠ 0 := by
    rw [Ne, ZMod.natCast_eq_zero_iff]
    intro hdvd
    exact absurd (Nat.le_of_dvd nonce.pos hdvd) (Nat.not_le.mpr nonce.lt_order)
  have hinverse (v : Nat) : (invMod n v : ZMod n) = (v : ZMod n)⁻¹ := natCast_invMod n_bounds.2 n_bounds.1 v
  have hvalue : (s : ZMod n) * nonce.value = z + r * key.value := by
    have hcast := congrArg (Nat.cast (R := ZMod n)) hs
    rw [ZMod.natCast_mod, Nat.cast_mul, hinverse, Nat.cast_add, Nat.cast_mul] at hcast
    rw [hcast]
    field_simp
  rw [← mul_nsmul, ← add_nsmul]
  refine nsmul_base_eq_of_cast ?_
  rw [Nat.cast_add, ZMod.natCast_mod, Nat.cast_mul, Nat.cast_mul, ZMod.natCast_mod, Nat.cast_mul, hinverse]
  field_simp
  linear_combination -hvalue

theorem verifyScalars_eq_true_iff {verifier : PublicKey} {z r s : Nat} : verifyScalars verifier z r s = true ↔
    ∃ x y, coordinates? ((z * invMod n s % n) • base + (r * invMod n s % n) • verifier.point) = some (x, y) ∧
      x % n = r := by
  have hpos : 0 < n := Nat.lt_trans (by decide) n_bounds.1
  have hlow (v : Nat) : v % n < 2 ^ 256 := Nat.lt_trans (Nat.mod_lt v hpos) n_bounds.2
  have hpoint := toAffine?_of_standsFor (standsFor_add
    (standsFor_multiple_of_lt standsFor_generator (hlow (z * invMod n s)))
    (standsFor_multiple_of_lt verifier.standsFor_toJacobian (hlow (r * invMod n s))))
  unfold verifyScalars
  simp only [hpoint]
  cases coordinates? ((z * invMod n s % n) • base + (r * invMod n s % n) • verifier.point) with
  | none => simp
  | some both =>
    simp only [decide_eq_true_eq, Option.some.injEq]
    constructor
    · intro hx
      exact ⟨both.1, both.2, rfl, hx⟩
    · rintro ⟨x, y, rfl, hx⟩
      exact hx

/-- What a private key signs verifies under its public key. -/
theorem verify_withNonce? (hsigned : withNonce? key nonce message = some signature) :
    verify key.publicKey message signature.toList = true := by
  obtain ⟨x, y, r, s, hcoordinates, hr, hs, hrne, hsne, rfl⟩ := withNonce?_eq_some_iff.mp hsigned
  have hpos : 0 < n := Nat.lt_trans (by decide) n_bounds.1
  have hrlow : r < n := by rw [hr]; exact Nat.mod_lt _ hpos
  have hslow : s < n := by rw [hs]; exact Nat.mod_lt _ hpos
  have hnumber {v : Nat} (hv : v < n) : Bytes.toNat (Octets.ofNat 32 v).toList = v :=
    Octets.toNat_ofNat_of_lt (Nat.lt_trans hv (by decide))
  have hlist : ((Octets.ofNat 32 r).append (.ofNat 32 s)).toList
      = (Octets.ofNat 32 r).toList ++ (Octets.ofNat 32 s).toList := rfl
  have htake : Bytes.toNat (((Octets.ofNat 32 r).append (.ofNat 32 s)).toList.take 32) = r := by
    rw [hlist, List.take_left' (Octets.length_toList _), hnumber hrlow]
  have hdrop : Bytes.toNat (((Octets.ofNat 32 r).append (.ofNat 32 s)).toList.drop 32) = s := by
    rw [hlist, List.drop_left' (Octets.length_toList _), hnumber hslow]
  have hverified : verifyScalars key.publicKey (hashScalar message) r s = true := by
    rw [verifyScalars_eq_true_iff, key.point_publicKey, verification_point hs hsne]
    exact ⟨x, y, hcoordinates, hr.symm⟩
  rw [verify, htake, hdrop, hverified]
  simp [Octets.length_toList, Nat.pos_of_ne_zero hrne, Nat.pos_of_ne_zero hsne, hrlow, hslow]

theorem verify_of_make (hmade : make key message = .ok signature) :
    verify key.publicKey message signature.toList = true := by
  unfold make at hmade
  cases hsign : sign? key message with
  | none =>
    rw [hsign] at hmade
    cases hmade
  | some made =>
    rw [hsign, Option.elim_some, Except.ok.injEq] at hmade
    subst hmade
    rw [sign?, Option.bind_eq_some_iff] at hsign
    obtain ⟨nonce, -, hwith⟩ := hsign
    exact verify_withNonce? hwith

end Signature

/-! ### Key pairs -/

namespace KeyPair

theorem agree_comm (a b : KeyPair) (transaction : Bytes) :
    a.privateKey.agree b.publicKey transaction = b.privateKey.agree a.publicKey transaction := by
  rw [a.publicKey_eq, b.publicKey_eq, PrivateKey.agree_comm]

theorem verify_make {keyPair : KeyPair} {message : Bytes} {signature : Signature}
    (hmade : Signature.make keyPair.privateKey message = .ok signature) :
    Signature.verify keyPair.publicKey message signature.toList = true := by
  rw [keyPair.publicKey_eq]
  exact Signature.verify_of_make hmade

end KeyPair

end TapAccess
