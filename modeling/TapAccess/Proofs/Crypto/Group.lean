import Mathlib.AlgebraicGeometry.EllipticCurve.Affine.Point
import Mathlib.Tactic.FieldSimp
import Mathlib.Tactic.LinearCombination
import TapAccess.Proofs.Crypto.Modular

/-!
# The group of the curve

The points of the curve form a group, and the Jacobian coordinates compute in it: `StandsFor a P` says that the
coordinates `a` are those of the point `P`, and doubling, adding and taking multiples of coordinates double, add
and multiply the points (`standsFor_double`, `standsFor_add`, `standsFor_multiple`). The affine coordinates that
are read off at the end are those of the point (`toAffine?_of_standsFor`). The generator has order `n`, so that a
multiple of it is at infinity only for multiples of `n` (`nsmul_base_eq_zero_iff`).
-/

namespace TapAccess.P256

open WeierstrassCurve

abbrev Field := ZMod p

/-- The curve `y² = x³ - 3x + b`. -/
def curve : Affine Field := ⟨0, 0, 0, -3, (b : Field)⟩

/-- The group of points of the curve. -/
abbrev Group := curve.Point

theorem natCast_eq_zero_iff_of_lt {v : Nat} (hv : v < p) : (v : Field) = 0 ↔ v = 0 := by
  rw [ZMod.natCast_eq_zero_iff]
  constructor
  · intro hdvd
    exact Nat.eq_zero_of_dvd_of_lt hdvd hv
  · rintro rfl
    exact Nat.dvd_zero p

theorem natCast_val (x : Field) : (x.val : Field) = x := ZMod.natCast_zmod_val x

theorem two_ne_zero_field : (2 : Field) ≠ 0 := by
  have htwo : ((2 : Nat) : Field) ≠ 0 := by
    rw [Ne, natCast_eq_zero_iff_of_lt p_bounds.1]
    decide
  exact_mod_cast htwo

/-! ### Equations -/

theorem equation_iff {x y : Field} : curve.Equation x y ↔ y ^ 2 = x ^ 3 - 3 * x + b := by
  rw [Affine.equation_iff]
  simp only [curve]
  constructor
  · intro h
    linear_combination h
  · intro h
    linear_combination h

theorem discriminant_ne_zero : curve.Δ ≠ 0 := by
  have hvalue : curve.Δ = ((1728 - 432 * (b : Int) ^ 2 : Int) : Field) := by
    simp only [WeierstrassCurve.Δ, WeierstrassCurve.b₂, WeierstrassCurve.b₄, WeierstrassCurve.b₆,
      WeierstrassCurve.b₈, curve]
    push_cast
    ring
  rw [hvalue, Ne, ZMod.intCast_zmod_eq_zero_iff_dvd]
  decide +kernel

theorem nonsingular_of_equation {x y : Field} (h : curve.Equation x y) : curve.Nonsingular x y :=
  (Affine.equation_iff_nonsingular_of_Δ_ne_zero discriminant_ne_zero).mp h

theorem equation_of_onCurve {x y : Nat} (h : OnCurve x y) : curve.Equation (x : Field) y := by
  rw [equation_iff]
  have hcast := congrArg (Nat.cast (R := Field)) h
  rw [ZMod.natCast_mod, ZMod.natCast_mod] at hcast
  push_cast [Nat.cast_sub (show 3 ≤ p from p_bounds.1), ZMod.natCast_self] at hcast
  linear_combination hcast

theorem onCurve_of_equation {x y : Nat} (h : curve.Equation (x : Field) y) : OnCurve x y := by
  rw [equation_iff] at h
  rw [OnCurve, ← ZMod.natCast_eq_natCast_iff']
  push_cast [Nat.cast_sub (show 3 ≤ p from p_bounds.1), ZMod.natCast_self]
  linear_combination h

/-! ### Coordinates of points -/

/-- The coordinates are numbers below `p` and those of the point. -/
def StandsFor (a : Jacobian) (P : Group) : Prop :=
  a.x < p ∧ a.y < p ∧ a.z < p ∧
    match P with
    | .zero => a.z = 0
    | .some x y _ => (a.z : Field) ≠ 0 ∧ (a.x : Field) = x * (a.z : Field) ^ 2 ∧
      (a.y : Field) = y * (a.z : Field) ^ 3

variable {a c : Jacobian} {P Q : Group}

theorem p_pos : 0 < p := Nat.lt_trans (by decide) p_bounds.1

theorem natCast_subMod_mod (x y : Nat) : (subMod p x (y % p) : Field) = (x : Field) - y := by
  rw [natCast_subMod (Nat.le_of_lt (Nat.mod_lt _ p_pos)), ZMod.natCast_mod]

theorem natCast_subMod_of_lt {x y : Nat} (hy : y < p) : (subMod p x y : Field) = (x : Field) - y :=
  natCast_subMod (Nat.le_of_lt hy)

theorem standsFor_zero (hx : a.x < p) (hy : a.y < p) (hz : a.z = 0) : StandsFor a 0 :=
  ⟨hx, hy, by rw [hz]; exact p_pos, hz⟩

theorem standsFor_infinity : StandsFor .infinity 0 :=
  standsFor_zero (by decide) (by decide) rfl

theorem standsFor_ofAffine {x y : Nat} (hx : x < p) (hy : y < p) (h : curve.Nonsingular (x : Field) y) :
    StandsFor (.ofAffine x y) (.some _ _ h) := by
  refine ⟨hx, hy, prime_p.one_lt, ?_, ?_, ?_⟩
  · show ((1 : Nat) : Field) ≠ 0
    rw [Nat.cast_one]
    exact one_ne_zero
  · simp [Jacobian.ofAffine]
  · simp [Jacobian.ofAffine]

/-! ### Doubling -/

theorem double_lt (a : Jacobian) : a.double.x < p ∧ a.double.y < p ∧ a.double.z < p :=
  ⟨subMod_lt p_pos _ _, subMod_lt p_pos _ _, Nat.mod_lt _ p_pos⟩

theorem natCast_double_z (a : Jacobian) : (a.double.z : Field) = 2 * a.y * a.z := by
  simp only [Jacobian.double, ZMod.natCast_mod, Nat.cast_mul, Nat.cast_ofNat]

theorem natCast_double_x (a : Jacobian) : (a.double.x : Field) =
    (3 * ((a.x - (a.z : Field) ^ 2) * (a.x + (a.z : Field) ^ 2))) ^ 2 - 2 * (4 * a.x * (a.y : Field) ^ 2) := by
  simp only [Jacobian.double, natCast_subMod_mod, ZMod.natCast_mod, Nat.cast_mul, Nat.cast_add, Nat.cast_ofNat]
  ring

theorem natCast_double_y (a : Jacobian) : (a.double.y : Field) =
    3 * ((a.x - (a.z : Field) ^ 2) * (a.x + (a.z : Field) ^ 2)) * (4 * a.x * (a.y : Field) ^ 2 - a.double.x)
      - 8 * (a.y : Field) ^ 4 := by
  have hx : a.double.x < p := (double_lt a).1
  have hy : a.double.y = subMod p (3 * (subMod p a.x (a.z * a.z % p) * (a.x + a.z * a.z % p) % p) % p
      * subMod p (4 * a.x * (a.y * a.y % p) % p) a.double.x) (8 * (a.y * a.y % p * (a.y * a.y % p)) % p) := rfl
  rw [hy]
  simp only [natCast_subMod_mod, natCast_subMod_of_lt hx, ZMod.natCast_mod, Nat.cast_mul, Nat.cast_add,
    Nat.cast_ofNat]
  ring

theorem standsFor_double (ha : StandsFor a P) : StandsFor a.double (P + P) := by
  obtain ⟨hx, hy, hz, hstands⟩ := ha
  obtain ⟨hx', hy', hz'⟩ := double_lt a
  cases P with
  | zero =>
    have hzero : (a.double.z : Field) = 0 := by
      rw [natCast_double_z, hstands, Nat.cast_zero, mul_zero]
    exact standsFor_zero hx' hy' ((natCast_eq_zero_iff_of_lt hz').mp hzero)
  | some x y h =>
    obtain ⟨hz0, hX, hY⟩ := hstands
    by_cases hy0 : y = 0
    · have hself : y = curve.negY x y := by
        simp [Affine.negY, curve, hy0]
      have hzero : (a.double.z : Field) = 0 := by
        rw [natCast_double_z, hY, hy0]
        ring
      rw [Affine.Point.add_self_of_Y_eq hself]
      exact standsFor_zero hx' hy' ((natCast_eq_zero_iff_of_lt hz').mp hzero)
    · have hneg : curve.negY x y = -y := by simp [Affine.negY, curve]
      have hself : y ≠ curve.negY x y := by
        rw [hneg]
        intro hyy
        have htwo : 2 * y = 0 := by linear_combination hyy
        exact hy0 ((mul_eq_zero.mp htwo).resolve_left two_ne_zero_field)
      have hslope : curve.slope x x y y = 3 * (x ^ 2 - 1) / (2 * y) := by
        have hrise : 3 * x ^ 2 + 2 * 0 * x + -3 - 0 * y = 3 * (x ^ 2 - 1) := by ring
        have hrun : y - -y = 2 * y := by ring
        rw [Affine.slope_of_Y_ne rfl hself, hneg, hrun]
        simp only [curve]
        rw [hrise]
      have h2 := two_ne_zero_field
      rw [Affine.Point.add_self_of_Y_ne hself]
      refine ⟨hx', hy', hz', ?_, ?_, ?_⟩
      · rw [natCast_double_z, hY]
        exact mul_ne_zero (mul_ne_zero h2 (mul_ne_zero hy0 (pow_ne_zero 3 hz0))) hz0
      · rw [natCast_double_x, natCast_double_z, hslope, hX, hY, Affine.addX]
        simp only [curve]
        field_simp
        ring
      · rw [natCast_double_y, natCast_double_x, natCast_double_z, hslope, hX, hY]
        simp only [Affine.addY, Affine.negAddY, Affine.negY, Affine.addX, curve]
        field_simp
        ring

/-! ### Adding -/

def run (a c : Jacobian) : Nat := subMod p (c.x * (a.z * a.z % p)) (a.x * (c.z * c.z % p) % p)

/-- The scaled difference of the ordinates. -/
def rise (a c : Jacobian) : Nat :=
  subMod p (c.y * (a.z * a.z % p * a.z % p)) (a.y * (c.z * c.z % p * c.z % p) % p)

theorem natCast_run (a c : Jacobian) :
    (run a c : Field) = c.x * (a.z : Field) ^ 2 - a.x * (c.z : Field) ^ 2 := by
  simp only [run, natCast_subMod_mod, ZMod.natCast_mod, Nat.cast_mul]
  ring

theorem natCast_rise (a c : Jacobian) :
    (rise a c : Field) = c.y * (a.z : Field) ^ 3 - a.y * (c.z : Field) ^ 3 := by
  simp only [rise, natCast_subMod_mod, ZMod.natCast_mod, Nat.cast_mul]
  ring

theorem run_lt (a c : Jacobian) : run a c < p := subMod_lt p_pos _ _

theorem rise_lt (a c : Jacobian) : rise a c < p := subMod_lt p_pos _ _

theorem add_eq (ha : a.z ≠ 0) (hc : c.z ≠ 0) : a.add c =
    if run a c = 0 then if rise a c = 0 then a.double else .infinity
    else
      let h2 := run a c * run a c % p
      let h3 := h2 * run a c % p
      let v := a.x * (c.z * c.z % p) % p * h2 % p
      let x := subMod p (rise a c * rise a c) ((h3 + 2 * v) % p)
      ⟨x, subMod p (rise a c * subMod p v x) (a.y * (c.z * c.z % p * c.z % p) % p * h3 % p),
        a.z * c.z % p * run a c % p⟩ := by
  rw [Jacobian.add, if_neg ha, if_neg hc]
  rfl

theorem add_of_run_ne (ha : a.z ≠ 0) (hc : c.z ≠ 0) (hrun : run a c ≠ 0) :
    ((a.add c).x < p ∧ (a.add c).y < p ∧ (a.add c).z < p) ∧
    ((a.add c).z : Field) = a.z * c.z * run a c ∧
    ((a.add c).x : Field) = (rise a c : Field) ^ 2
      - ((run a c : Field) ^ 3 + 2 * (a.x * (c.z : Field) ^ 2 * (run a c : Field) ^ 2)) ∧
    ((a.add c).y : Field) = rise a c * (a.x * (c.z : Field) ^ 2 * (run a c : Field) ^ 2 - (a.add c).x)
      - a.y * (c.z : Field) ^ 3 * (run a c : Field) ^ 3 := by
  rw [add_eq ha hc, if_neg hrun]
  dsimp only
  generalize run a c = h
  generalize rise a c = r
  refine ⟨⟨subMod_lt p_pos _ _, subMod_lt p_pos _ _, Nat.mod_lt _ p_pos⟩, ?_, ?_, ?_⟩
  · simp only [ZMod.natCast_mod, Nat.cast_mul]
  · simp only [natCast_subMod_mod, ZMod.natCast_mod, Nat.cast_mul, Nat.cast_add, Nat.cast_ofNat]
    ring
  · simp only [natCast_subMod_mod, natCast_subMod_of_lt (subMod_lt p_pos _ _), ZMod.natCast_mod, Nat.cast_mul,
      Nat.cast_add, Nat.cast_ofNat]
    ring

theorem standsFor_add (ha : StandsFor a P) (hc : StandsFor c Q) : StandsFor (a.add c) (P + Q) := by
  cases P with
  | zero =>
    have hsum : a.add c = c := by
      rw [Jacobian.add, if_pos ha.2.2.2]
    rw [hsum]
    exact hc
  | some x₁ y₁ h₁ =>
    obtain ⟨-, -, haz, ha0, hax, hay⟩ := id ha
    have hane : a.z ≠ 0 := fun hzero => ha0 ((natCast_eq_zero_iff_of_lt haz).mpr hzero)
    cases Q with
    | zero =>
      have hsum : a.add c = a := by
        rw [Jacobian.add, if_neg hane, if_pos hc.2.2.2]
      rw [hsum]
      exact ha
    | some x₂ y₂ h₂ =>
      obtain ⟨-, -, hcz, hc0, hcx, hcy⟩ := id hc
      have hcne : c.z ≠ 0 := fun hzero => hc0 ((natCast_eq_zero_iff_of_lt hcz).mpr hzero)
      have hrun : (run a c : Field) = (x₂ - x₁) * ((a.z : Field) * c.z) ^ 2 := by
        rw [natCast_run, hax, hcx]
        ring
      have hrise : (rise a c : Field) = (y₂ - y₁) * ((a.z : Field) * c.z) ^ 3 := by
        rw [natCast_rise, hay, hcy]
        ring
      have hscale : (a.z : Field) * c.z ≠ 0 := mul_ne_zero ha0 hc0
      have hrun0 : run a c = 0 ↔ x₁ = x₂ := by
        rw [← natCast_eq_zero_iff_of_lt (run_lt a c), hrun, mul_eq_zero, sub_eq_zero, eq_comm]
        exact or_iff_left (pow_ne_zero 2 hscale)
      have hrise0 : rise a c = 0 ↔ y₁ = y₂ := by
        rw [← natCast_eq_zero_iff_of_lt (rise_lt a c), hrise, mul_eq_zero, sub_eq_zero, eq_comm]
        exact or_iff_left (pow_ne_zero 3 hscale)
      by_cases hx : x₁ = x₂
      · rw [add_eq hane hcne, if_pos (hrun0.mpr hx)]
        by_cases hy : y₁ = y₂
        · subst hx hy
          rw [if_pos (hrise0.mpr rfl)]
          exact standsFor_double ha
        · have hopposite : y₁ = curve.negY x₂ y₂ :=
            (Affine.Y_eq_of_X_eq h₁.1 h₂.1 hx).resolve_left hy
          rw [if_neg (fun hzero => hy (hrise0.mp hzero)), Affine.Point.add_of_Y_eq hx hopposite]
          exact standsFor_infinity
      · have hrunne : run a c ≠ 0 := fun hzero => hx (hrun0.mp hzero)
        obtain ⟨⟨hx', hy', hz'⟩, hz3, hx3, hy3⟩ := add_of_run_ne hane hcne hrunne
        have hslope : curve.slope x₁ x₂ y₁ y₂ = (y₂ - y₁) / (x₂ - x₁) := by
          rw [Affine.slope_of_X_ne hx, ← neg_sub y₂, ← neg_sub x₂, neg_div_neg_eq]
        have hdiff : x₂ - x₁ ≠ 0 := sub_ne_zero.mpr (Ne.symm hx)
        rw [Affine.Point.add_of_X_ne hx]
        refine ⟨hx', hy', hz', ?_, ?_, ?_⟩
        · rw [hz3, hrun]
          exact mul_ne_zero hscale (mul_ne_zero hdiff (pow_ne_zero 2 hscale))
        · rw [hx3, hz3, hrun, hrise, hslope, hax, Affine.addX]
          simp only [curve]
          field_simp
          ring
        · rw [hy3, hx3, hz3, hrun, hrise, hslope, hax, hay]
          simp only [Affine.addY, Affine.negAddY, Affine.negY, Affine.addX, curve]
          field_simp
          ring

/-! ### Multiples -/

theorem standsFor_multiple (ha : StandsFor a P) (width k : Nat) :
    StandsFor (a.multiple width k) ((k % 2 ^ width) • P) := by
  induction width generalizing k with
  | zero =>
    rw [Nat.pow_zero, Nat.mod_one, zero_nsmul]
    exact standsFor_infinity
  | succ width ih =>
    have hdigits : k % 2 ^ (width + 1) = k / 2 % 2 ^ width + k / 2 % 2 ^ width + k % 2 := by
      rw [Nat.pow_succ, Nat.mul_comm, Nat.mod_mul]
      omega
    have heven := standsFor_double (ih (k / 2))
    rw [← add_nsmul] at heven
    rw [Jacobian.multiple, hdigits]
    split
    · next hodd =>
      rw [hodd, succ_nsmul]
      exact standsFor_add heven ha
    · next hnotodd =>
      have hzero : k % 2 = 0 := by omega
      rw [hzero, Nat.add_zero]
      exact heven

theorem standsFor_multiple_of_lt (ha : StandsFor a P) {k : Nat} (hk : k < 2 ^ 256) :
    StandsFor (a.multiple 256 k) (k • P) := by
  have hmultiple := standsFor_multiple ha 256 k
  rw [Nat.mod_eq_of_lt hk] at hmultiple
  exact hmultiple

/-! ### Affine coordinates -/

def coordinates? : Group → Option (Nat × Nat)
  | .zero => none
  | .some x y _ => some (x.val, y.val)

theorem toAffine?_of_standsFor (ha : StandsFor a P) : a.toAffine? = coordinates? P := by
  obtain ⟨-, -, hz, hstands⟩ := ha
  unfold Jacobian.toAffine? coordinates?
  cases P with
  | zero => rw [if_pos hstands]
  | some x y h =>
    obtain ⟨hz0, hx, hy⟩ := hstands
    have hne : a.z ≠ 0 := fun hzero => hz0 ((natCast_eq_zero_iff_of_lt hz).mpr hzero)
    have hinverse : (invMod p a.z : Field) = (a.z : Field)⁻¹ :=
      natCast_invMod p_bounds.2 p_bounds.1 a.z
    rw [if_neg hne]
    change some (a.x * (invMod p a.z * invMod p a.z % p) % p,
      a.y * (invMod p a.z * invMod p a.z % p * invMod p a.z % p) % p) = some (x.val, y.val)
    congr 2
    · rw [← ZMod.val_natCast]
      congr 1
      rw [Nat.cast_mul, ZMod.natCast_mod, Nat.cast_mul, hinverse, hx]
      field_simp
    · rw [← ZMod.val_natCast]
      congr 1
      rw [Nat.cast_mul, ZMod.natCast_mod, Nat.cast_mul, ZMod.natCast_mod, Nat.cast_mul, hinverse, hy]
      field_simp

theorem coordinates?_eq_some_iff {x y : Nat} :
    coordinates? P = some (x, y) ↔ ∃ h, P = .some (x : Field) (y : Field) h ∧ x < p ∧ y < p := by
  cases P with
  | zero => simp [coordinates?]
  | some x' y' h' =>
    rw [coordinates?, Option.some.injEq, Prod.mk.injEq]
    constructor
    · rintro ⟨rfl, rfl⟩
      refine ⟨?_, ?_, ZMod.val_lt x', ZMod.val_lt y'⟩
      · rw [natCast_val, natCast_val]
        exact h'
      · simp only [natCast_val]
    · rintro ⟨h, hpoint, hx, hy⟩
      rw [Affine.Point.some.injEq] at hpoint
      rw [hpoint.1, hpoint.2]
      exact ⟨ZMod.val_cast_of_lt hx, ZMod.val_cast_of_lt hy⟩

/-! ### The generator -/

theorem nonsingular_generator : curve.Nonsingular (generatorX : Field) (generatorY : Field) :=
  nonsingular_of_equation (equation_of_onCurve onCurve_generator)

/-- The generator as a point. -/
def base : Group := .some (generatorX : Field) (generatorY : Field) nonsingular_generator

theorem standsFor_generator : StandsFor generator base :=
  standsFor_ofAffine (by decide) (by decide) nonsingular_generator

theorem base_ne_zero : base ≠ 0 := Affine.Point.some_ne_zero _

theorem nsmul_order_base : n • base = 0 := by
  have hmultiple := standsFor_multiple_of_lt standsFor_generator n_bounds.2
  have hnone : (generator.multiple 256 n).toAffine? = none := by decide +kernel
  rw [toAffine?_of_standsFor hmultiple] at hnone
  generalize n • base = P at hnone
  cases P with
  | zero => rfl
  | some x y h => cases hnone

theorem addOrderOf_base : addOrderOf base = n := addOrderOf_eq_prime nsmul_order_base base_ne_zero

theorem nsmul_base_eq_zero_iff {k : Nat} : k • base = 0 ↔ n ∣ k := by
  rw [← addOrderOf_base, addOrderOf_dvd_iff_nsmul_eq_zero]

theorem nsmul_base_eq_of_cast {k l : Nat} (hcast : (k : ZMod n) = l) : k • base = l • base := by
  rw [ZMod.natCast_eq_natCast_iff] at hcast
  rw [nsmul_eq_nsmul_iff_modEq, addOrderOf_base]
  exact hcast

end TapAccess.P256
