import Mathlib.FieldTheory.Finite.Basic
import Mathlib.NumberTheory.LucasPrimality
import TapAccess.Crypto.Curve

/-!
# Arithmetic modulo the two primes of the curve

The operations on numbers below `m` are those of `ZMod m` (`natCast_powMod`, `natCast_subMod`), and the inverse
by Fermat's little theorem is the inverse when `m` is a prime (`natCast_invMod`). That the two moduli of the
curve are primes is proved by certificates: a small prime is tried with every smaller number, and a large one
comes with certificates of the prime factors of its predecessor and an element whose powers, computed by
`powMod`, show that it has that order. `Certificate.prime_of_check` is Lucas's test.
-/

namespace TapAccess.P256

/-! ### Powers -/

theorem natCast_powMod (m x width e : Nat) : (powMod m x width e : ZMod m) = (x : ZMod m) ^ (e % 2 ^ width) := by
  induction width generalizing e with
  | zero =>
    rw [powMod, ZMod.natCast_mod, Nat.pow_zero, Nat.mod_one, pow_zero, Nat.cast_one]
  | succ width ih =>
    have hexponent : e % 2 ^ (width + 1) = e / 2 % 2 ^ width + e / 2 % 2 ^ width + e % 2 := by
      rw [Nat.pow_succ, Nat.mul_comm, Nat.mod_mul]
      omega
    have hsquare : ((powMod m x width (e / 2) * powMod m x width (e / 2) % m : Nat) : ZMod m)
        = (x : ZMod m) ^ (e / 2 % 2 ^ width + e / 2 % 2 ^ width) := by
      rw [ZMod.natCast_mod, Nat.cast_mul, ih, pow_add]
    rw [powMod, hexponent]
    split
    · next hodd => rw [ZMod.natCast_mod, Nat.cast_mul, hsquare, hodd, pow_succ]
    · next heven =>
      have hzero : e % 2 = 0 := by omega
      rw [hsquare, hzero, Nat.add_zero]

theorem powMod_lt {m : Nat} (hm : 0 < m) (x width e : Nat) : powMod m x width e < m := by
  cases width with
  | zero => exact Nat.mod_lt _ hm
  | succ width =>
    rw [powMod]
    split
    · exact Nat.mod_lt _ hm
    · exact Nat.mod_lt _ hm

/-! ### Primes -/

/-- How a number is seen to be a prime. -/
inductive Certificate where
  | small (number : Nat)
  | large (number element : Nat) (factors : List Certificate)

namespace Certificate

def number : Certificate → Nat
  | small number => number
  | large number _ _ => number

/-- No number from 2 up to `bound` is a proper divisor. -/
def noDivisor (m : Nat) : (bound : Nat) → Bool
  | 0 => true
  | d + 1 => (d ≤ 1 || m ≤ d || m % d != 0) && noDivisor m d

/-- No proper divisor is found below a power of two that is larger than the root. -/
def isSmallPrime (m : Nat) : Bool := 1 < m && noDivisor m (2 ^ (m.log2 / 2 + 1))

/-- The element `a` has order `m - 1`, which is the product of the given factors. -/
def IsPrimitive (m a : Nat) (factors : List Nat) : Prop :=
  1 < m ∧ factors.prod = m - 1 ∧ powMod m a (m.log2 + 1) (m - 1) = 1 ∧
    ∀ q ∈ factors, powMod m a (m.log2 + 1) ((m - 1) / q) ≠ 1

instance (m a : Nat) (factors : List Nat) : Decidable (IsPrimitive m a factors) :=
  inferInstanceAs (Decidable (_ ∧ _ ∧ _ ∧ _))

mutual

def check : Certificate → Bool
  | small m => isSmallPrime m
  | large m a factors => IsPrimitive m a (factors.map number) && checkAll factors

def checkAll : List Certificate → Bool
  | [] => true
  | c :: cs => check c && checkAll cs

end

theorem mod_ne_zero_of_noDivisor {m bound d : Nat} (hnone : noDivisor m bound = true) (hone : 1 < d)
    (hlt : d < m) (hbound : d < bound) : m % d ≠ 0 := by
  induction bound with
  | zero => omega
  | succ e ih =>
    rw [noDivisor, Bool.and_eq_true] at hnone
    obtain ⟨htried, hrest⟩ := hnone
    rcases Nat.lt_or_ge d e with hless | hge
    · exact ih hrest hless
    · have hsame : d = e := by omega
      subst hsame
      simp only [Bool.or_eq_true, decide_eq_true_eq, bne_iff_ne] at htried
      rcases htried with (hle | hle) | hne
      · omega
      · omega
      · exact hne

theorem prime_of_isSmallPrime {m : Nat} (hsmall : isSmallPrime m = true) : m.Prime := by
  rw [isSmallPrime, Bool.and_eq_true, decide_eq_true_eq] at hsmall
  obtain ⟨hone, hnone⟩ := hsmall
  by_contra hnot
  -- the least factor is at most the root, and so it has been tried
  have hfactor : m.minFac < m := (Nat.not_prime_iff_minFac_lt hone).mp hnot
  have hsquare : m.minFac ^ 2 ≤ m := Nat.minFac_sq_le_self (by omega) hnot
  have hprime := Nat.minFac_prime (n := m) (by omega)
  have hlow : m.minFac < 2 ^ (m.log2 / 2 + 1) := by
    refine lt_of_pow_lt_pow_left₀ 2 (Nat.zero_le _) (Nat.lt_of_le_of_lt hsquare ?_)
    rw [← pow_mul]
    refine Nat.lt_of_lt_of_le Nat.lt_log2_self (Nat.pow_le_pow_right (by decide) ?_)
    omega
  exact mod_ne_zero_of_noDivisor hnone hprime.one_lt hfactor hlow (Nat.mod_eq_zero_of_dvd m.minFac_dvd)

/-- Lucas's test. -/
theorem prime_of_isPrimitive {m a : Nat} {factors : List Nat} (hprime : ∀ q ∈ factors, q.Prime)
    (hprimitive : IsPrimitive m a factors) : m.Prime := by
  obtain ⟨hone, hprod, horder, hfactors⟩ := hprimitive
  have hpower {e : Nat} (he : e ≤ m) : (powMod m a (m.log2 + 1) e : ZMod m) = (a : ZMod m) ^ e := by
    rw [natCast_powMod, Nat.mod_eq_of_lt (Nat.lt_of_le_of_lt he Nat.lt_log2_self)]
  refine lucas_primality m (a : ZMod m) ?_ ?_
  · rw [← hpower (Nat.sub_le _ _), horder, Nat.cast_one]
  · intro q hq hdvd htrivial
    have hmem : q ∈ factors := by
      rw [← hprod] at hdvd
      obtain ⟨r, hr, hqr⟩ := (Prime.dvd_prod_iff hq.prime).mp hdvd
      rw [(Nat.prime_dvd_prime_iff_eq hq (hprime r hr)).mp hqr]
      exact hr
    have hunit : (powMod m a (m.log2 + 1) ((m - 1) / q) : ZMod m) = ((1 : Nat) : ZMod m) := by
      rw [hpower (Nat.le_trans (Nat.div_le_self _ _) (Nat.sub_le _ _)), htrivial, Nat.cast_one]
    rw [ZMod.natCast_eq_natCast_iff', Nat.mod_eq_of_lt hone,
      Nat.mod_eq_of_lt (powMod_lt (by omega) _ _ _)] at hunit
    exact hfactors q hmem hunit

mutual

theorem prime_of_check : ∀ c : Certificate, c.check = true → c.number.Prime
  | small m, hcheck => by
    rw [check] at hcheck
    exact prime_of_isSmallPrime hcheck
  | large m a factors, hcheck => by
    rw [check, Bool.and_eq_true, decide_eq_true_eq] at hcheck
    exact prime_of_isPrimitive (prime_of_checkAll factors hcheck.2) hcheck.1

theorem prime_of_checkAll : ∀ cs : List Certificate, checkAll cs = true → ∀ q ∈ cs.map number, q.Prime
  | [], _ => by simp
  | c :: cs, hcheck => by
    rw [checkAll, Bool.and_eq_true] at hcheck
    rw [List.map_cons, List.forall_mem_cons]
    exact ⟨prime_of_check c hcheck.1, prime_of_checkAll cs hcheck.2⟩

end

def ofP : Certificate :=
  large p 6 [small 2, small 3, small 5, small 5, small 17, small 257, small 641, small 1531, small 65537,
    small 490463, large 6700417 5 [small 2, small 2, small 2, small 2, small 2, small 2, small 2, small 3,
      small 17449],
    large 835945042244614951780389953367877943453916927241 11 [small 2, small 2, small 2, small 3, small 3,
      small 3, small 5, large 774023187263532362759620327192479577272145303 3 [small 2, small 3, small 3,
        small 2411,
        large 34282281433 17 [small 2, small 2, small 2, small 3, small 7,
          large 204061199 11 [small 2, small 11, small 23, small 107, small 3769]],
        large 11290956913871 13 [small 2, small 5, small 17,
          large 66417393611 6 [small 2, small 5, small 53, small 173, small 197, small 3677]],
        large 46076956964474543 5 [small 2, small 23, small 18169, small 78283, small 704251]]]]

def ofN : Certificate :=
  large n 7 [small 2, small 2, small 2, small 2, small 3, small 71, small 131, small 373, small 3407,
    small 17449, small 38189,
    large 187019741 2 [small 2, small 2, small 5, large 9350987 2 [small 2, small 17, small 229, small 1201]],
    large 622491383 5 [small 2, large 311245691 2 [small 2, small 5, small 7, small 17, small 29, small 29,
      small 311]],
    large 1002328039319 19 [small 2, small 126241, large 3969899 2 [small 2, small 19, small 104471]],
    large 2624747550333869278416773953 7 [small 2, small 2, small 2, small 2, small 2, small 2, small 3,
      small 3, small 1297, small 16879,
      large 208150935158385979 2 [small 2, small 3, small 11, small 43, small 127, small 3023,
        large 191039911 3 [small 2, small 3, small 5, small 41, small 155317]]]]

end Certificate

theorem prime_p : p.Prime := Certificate.prime_of_check .ofP (by decide +kernel)

theorem prime_n : n.Prime := Certificate.prime_of_check .ofN (by decide +kernel)

instance : Fact p.Prime := ⟨prime_p⟩

instance : Fact n.Prime := ⟨prime_n⟩

/-! ### Differences and inverses -/

theorem natCast_subMod {m x y : Nat} (hy : y ≤ m) : (subMod m x y : ZMod m) = (x : ZMod m) - y := by
  rw [subMod, ZMod.natCast_mod, Nat.cast_add, Nat.cast_sub hy, ZMod.natCast_self, zero_sub, sub_eq_add_neg]

theorem natCast_invMod {m : Nat} [hprime : Fact m.Prime] (hm : m < 2 ^ 256) (htwo : 2 < m) (x : Nat) :
    (invMod m x : ZMod m) = (x : ZMod m)⁻¹ := by
  rw [invMod, natCast_powMod, Nat.mod_eq_of_lt (by omega)]
  by_cases hx : (x : ZMod m) = 0
  · rw [hx, zero_pow (by omega), inv_zero]
  · refine eq_inv_of_mul_eq_one_left ?_
    have hexponent : m - 2 + 1 = m - 1 := by omega
    rw [← pow_succ, hexponent, ZMod.pow_card_sub_one_eq_one hx]

theorem subMod_lt {m : Nat} (hm : 0 < m) (x y : Nat) : subMod m x y < m := Nat.mod_lt _ hm

theorem p_bounds : 2 < p ∧ p < 2 ^ 256 := by decide

theorem n_bounds : 2 < n ∧ n < 2 ^ 256 := by decide

end TapAccess.P256
