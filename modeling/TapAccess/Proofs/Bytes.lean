import Mathlib.Algebra.Group.Nat.Defs
import TapAccess.Identifier

/-!
# Numbers and byte strings of fixed length

A number in `width` bytes reads back as the number, up to the digits that do not fit (`toNat_ofNat`), and bytes
that spell a number are the number's bytes (`ofNat_toNat`). What is cut out of strings that were put together
is what was put in, and whatever is read as a byte string of fixed length is that byte string.
-/

namespace TapAccess

namespace Bytes

/-! ### Numbers -/

theorem foldl_digits (bytes : Bytes) (acc : Nat) :
    bytes.foldl (fun acc b => acc * 256 + b.toNat) acc = acc * 256 ^ bytes.length + toNat bytes := by
  induction bytes generalizing acc with
  | nil => simp [toNat]
  | cons b bytes ih =>
    rw [toNat, List.foldl_cons, List.foldl_cons, ih, ih (0 * 256 + b.toNat), List.length_cons, Nat.pow_succ]
    rw [Nat.zero_mul, Nat.zero_add, Nat.add_mul, Nat.mul_assoc, Nat.mul_comm 256, Nat.add_assoc]

theorem toNat_cons (b : UInt8) (bytes : Bytes) :
    toNat (b :: bytes) = b.toNat * 256 ^ bytes.length + toNat bytes := by
  rw [toNat, List.foldl_cons, foldl_digits, Nat.zero_mul, Nat.zero_add]

theorem toNat_lt (bytes : Bytes) : toNat bytes < 256 ^ bytes.length := by
  induction bytes with
  | nil => decide
  | cons b bytes ih =>
    have hb : b.toNat + 1 ≤ 256 := b.toNat_lt
    have hmul := Nat.mul_le_mul_right (256 ^ bytes.length) hb
    rw [Nat.add_mul, Nat.one_mul] at hmul
    rw [toNat_cons, List.length_cons, Nat.pow_succ, Nat.mul_comm _ 256]
    omega

theorem pow_256 (width : Nat) : 2 ^ (8 * width) = 256 ^ width := by
  rw [Nat.pow_mul]

theorem toNat_ofNat (width value : Nat) : toNat (ofNat width value) = value % 256 ^ width := by
  induction width with
  | zero => rw [Nat.pow_zero, Nat.mod_one]; rfl
  | succ width ih =>
    rw [ofNat, toNat_cons, length_ofNat, ih, UInt8.toNat_ofNat', Nat.shiftRight_eq_div_pow, pow_256,
      Nat.pow_succ (256), Nat.mod_mul, Nat.mul_comm, Nat.add_comm]

theorem toNat_ofNat_of_lt {width value : Nat} (hvalue : value < 256 ^ width) :
    toNat (ofNat width value) = value := by
  rw [toNat_ofNat, Nat.mod_eq_of_lt hvalue]

theorem ofNat_mod (width value : Nat) {modulus : Nat} (hwidth : width ≤ modulus) :
    ofNat width (value % 256 ^ modulus) = ofNat width value := by
  induction width with
  | zero => rfl
  | succ width ih =>
    rw [ofNat, ofNat, ih (by omega)]
    congr 1
    rw [← UInt8.toNat_inj, UInt8.toNat_ofNat', UInt8.toNat_ofNat', Nat.shiftRight_eq_div_pow,
      Nat.shiftRight_eq_div_pow, pow_256]
    obtain ⟨more, rfl⟩ : ∃ more, modulus = width + (1 + more) := ⟨modulus - width - 1, by omega⟩
    rw [Nat.pow_add, Nat.mod_mul_right_div_self, Nat.pow_add, Nat.pow_one, Nat.mod_mul_right_mod]

theorem ofNat_toNat (bytes : Bytes) : ofNat bytes.length (toNat bytes) = bytes := by
  induction bytes with
  | nil => rfl
  | cons b bytes ih =>
    have hlow := toNat_lt bytes
    rw [List.length_cons, ofNat, toNat_cons]
    congr 1
    · rw [← UInt8.toNat_inj, UInt8.toNat_ofNat', Nat.shiftRight_eq_div_pow, pow_256, Nat.mul_comm,
        Nat.mul_add_div (by omega), Nat.div_eq_of_lt hlow]
      exact Nat.mod_eq_of_lt b.toNat_lt
    · rw [← ofNat_mod _ _ (Nat.le_refl _), Nat.mul_comm, Nat.mul_add_mod, Nat.mod_eq_of_lt hlow, ih]

/-! ### Combining bit by bit -/

theorem length_xor (a b : Bytes) : (xor a b).length = min a.length b.length := by
  simp [xor]

theorem xor_xor_cancel {a k : Bytes} (hlength : a.length ≤ k.length) : xor (xor a k) k = a := by
  induction a generalizing k with
  | nil => rfl
  | cons x a ih =>
    cases k with
    | nil => simp at hlength
    | cons y k =>
      have hrest : xor (xor a k) k = a := ih (by simpa using hlength)
      show (x ^^^ y ^^^ y) :: xor (xor a k) k = x :: a
      rw [hrest, UInt8.xor_assoc, UInt8.xor_self, UInt8.xor_zero]

end Bytes

namespace Octets

variable {m n : Nat}

@[simp] theorem ofList?_toList (a : Octets n) : ofList? n a.toList = some a := by
  rw [ofList?, dif_pos a.length_eq]

@[simp] theorem parse_toList (a : Octets n) (field : String) : Octets.parse n field a.toList = .ok a := by
  rw [Octets.parse, ofList?_toList]

theorem toNat_ofNat_of_lt {value : Nat} (hvalue : value < 256 ^ n) : (Octets.ofNat n value).toNat = value :=
  Bytes.toNat_ofNat_of_lt hvalue

theorem slice_append_left (a : Octets m) (b : Octets n) (h : 0 + m ≤ m + n) :
    (a.append b).slice 0 m h = a := by
  apply Octets.ext
  simp [slice, append, List.take_left']

theorem slice_append_right (a : Octets m) (b : Octets n) (h : m + n ≤ m + n) :
    (a.append b).slice m n h = b := by
  apply Octets.ext
  simp [slice, append, List.drop_left', List.take_of_length_le]

end Octets

@[simp] theorem ReaderIdentifier.parse_encode (r : ReaderIdentifier) :
    ReaderIdentifier.parse r.encode.toList = .ok r := by
  rw [ReaderIdentifier.parse, Octets.parse_toList]
  show Except.ok (ReaderIdentifier.mk _ _) = _
  rw [ReaderIdentifier.encode, Octets.slice_append_left, Octets.slice_append_right]

end TapAccess
