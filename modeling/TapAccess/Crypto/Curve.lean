import TapAccess.Bytes

/-!
# The curve P-256

Points of `y² = x³ - 3x + b` over the field of `p` elements, and their multiples. Field elements are
numbers below `p`. A multiple is computed in Jacobian coordinates, where a step costs no division, and
brought back to affine coordinates at the end; the point at infinity has no affine coordinates.
-/

namespace TapAccess.P256

/-- The number of field elements, a prime. -/
def p : Nat := 0xffffffff00000001000000000000000000000000ffffffffffffffffffffffff

/-- The number of points of the curve, a prime. -/
def n : Nat := 0xffffffff00000000ffffffffffffffffbce6faada7179e84f3b9cac2fc632551

/-- The constant term of the curve's equation. -/
def b : Nat := 0x5ac635d8aa3a93e7b3ebbd55769886bc651d06b0cc53b0f63bce3c3e27d2604b

/-! ### Arithmetic modulo a number -/

/-- The difference of two numbers modulo `m`, the second of them below `m`. -/
@[inline] def subMod (m x y : Nat) : Nat := (x + (m - y)) % m

/-- `x` to the power given by the lowest `width` bits of `e`, modulo `m`. -/
def powMod (m x : Nat) : (width : Nat) → (e : Nat) → Nat
  | 0, _ => 1 % m
  | width + 1, e =>
    let half := powMod m x width (e / 2)
    let square := half * half % m
    if e % 2 = 1 then square * x % m else square

/-- The inverse of `x` modulo a 256-bit prime, by Fermat's little theorem; zero for zero. -/
def invMod (m x : Nat) : Nat := powMod m x 256 (m - 2)

/-! ### Points -/

/-- The pair satisfies the curve's equation. -/
def OnCurve (x y : Nat) : Prop := y * y % p = (x * x * x + (p - 3) * x + b) % p

instance (x y : Nat) : Decidable (OnCurve x y) := inferInstanceAs (Decidable (_ = _))

/-- A point as `(x / z², y / z³)`, at infinity when `z` is zero. -/
structure Jacobian where
  (x y z : Nat)
  deriving DecidableEq

namespace Jacobian

/-- The neutral element, which has no affine coordinates. -/
def infinity : Jacobian := ⟨1, 1, 0⟩

def ofAffine (x y : Nat) : Jacobian := ⟨x, y, 1⟩

def toAffine? (a : Jacobian) : Option (Nat × Nat) :=
  if a.z = 0 then none
  else
    let i := invMod p a.z
    let i2 := i * i % p
    some (a.x * i2 % p, a.y * (i2 * i % p) % p)

def double (a : Jacobian) : Jacobian :=
  let z2 := a.z * a.z % p
  let y2 := a.y * a.y % p
  let s := 4 * a.x * y2 % p
  -- the linear coefficient of the curve is -3, so 3x² - 3z⁴ is a product
  let m := 3 * (subMod p a.x z2 * (a.x + z2) % p) % p
  let x := subMod p (m * m) (2 * s % p)
  ⟨x, subMod p (m * subMod p s x) (8 * (y2 * y2) % p), 2 * a.y * a.z % p⟩

def add (a c : Jacobian) : Jacobian :=
  if a.z = 0 then c
  else if c.z = 0 then a
  else
    let az2 := a.z * a.z % p
    let cz2 := c.z * c.z % p
    let u := a.x * cz2 % p
    let s := a.y * (cz2 * c.z % p) % p
    let h := subMod p (c.x * az2) u
    let r := subMod p (c.y * (az2 * a.z % p)) s
    -- with one abscissa the points are equal or opposite
    if h = 0 then if r = 0 then double a else infinity
    else
      let h2 := h * h % p
      let h3 := h2 * h % p
      let v := u * h2 % p
      let x := subMod p (r * r) ((h3 + 2 * v) % p)
      ⟨x, subMod p (r * subMod p v x) (s * h3 % p), a.z * c.z % p * h % p⟩

/-- The multiple of a point by the number that the lowest `width` bits of `k` spell. -/
def multiple (a : Jacobian) : (width : Nat) → (k : Nat) → Jacobian
  | 0, _ => infinity
  | width + 1, k =>
    let even := (multiple a width (k / 2)).double
    if k % 2 = 1 then even.add a else even

end Jacobian

/-! ### The generator -/

def generatorX : Nat := 0x6b17d1f2e12c4247f8bce6e563a440f277037d812deb33a0f4a13945d898c296

def generatorY : Nat := 0x4fe342e2fe1a7f9b8ee7eb4a7c0f9e162bce33576b315ececbb6406837bf51f5

theorem onCurve_generator : OnCurve generatorX generatorY := by decide +kernel

/-- The point of which all others are multiples. -/
def generator : Jacobian := .ofAffine generatorX generatorY

end TapAccess.P256
