import TapAccess.Bytes

/-!
# AES-256, one block

The state is the sixteen bytes of the block, column by column. Encryption adds a round key, then
thirteen times substitutes, shifts rows, mixes columns and adds the next round key; the last round does
not mix. Decryption is not needed by the counter mode that uses this cipher.
-/

namespace TapAccess.Aes

/-! ### The substitution -/

/-- Multiplication by `x` in the field of 256 elements. -/
@[inline] def double (b : UInt8) : UInt8 :=
  (b <<< 1) ^^^ (if b &&& 0x80 = 0 then 0 else 0x1B)

/-- The substitution of each byte: inversion in the field of 256 elements and an affine map of bits. -/
def substitution : Array UInt8 := #[
  0x63, 0x7c, 0x77, 0x7b, 0xf2, 0x6b, 0x6f, 0xc5, 0x30, 0x01, 0x67, 0x2b, 0xfe, 0xd7, 0xab, 0x76,
  0xca, 0x82, 0xc9, 0x7d, 0xfa, 0x59, 0x47, 0xf0, 0xad, 0xd4, 0xa2, 0xaf, 0x9c, 0xa4, 0x72, 0xc0,
  0xb7, 0xfd, 0x93, 0x26, 0x36, 0x3f, 0xf7, 0xcc, 0x34, 0xa5, 0xe5, 0xf1, 0x71, 0xd8, 0x31, 0x15,
  0x04, 0xc7, 0x23, 0xc3, 0x18, 0x96, 0x05, 0x9a, 0x07, 0x12, 0x80, 0xe2, 0xeb, 0x27, 0xb2, 0x75,
  0x09, 0x83, 0x2c, 0x1a, 0x1b, 0x6e, 0x5a, 0xa0, 0x52, 0x3b, 0xd6, 0xb3, 0x29, 0xe3, 0x2f, 0x84,
  0x53, 0xd1, 0x00, 0xed, 0x20, 0xfc, 0xb1, 0x5b, 0x6a, 0xcb, 0xbe, 0x39, 0x4a, 0x4c, 0x58, 0xcf,
  0xd0, 0xef, 0xaa, 0xfb, 0x43, 0x4d, 0x33, 0x85, 0x45, 0xf9, 0x02, 0x7f, 0x50, 0x3c, 0x9f, 0xa8,
  0x51, 0xa3, 0x40, 0x8f, 0x92, 0x9d, 0x38, 0xf5, 0xbc, 0xb6, 0xda, 0x21, 0x10, 0xff, 0xf3, 0xd2,
  0xcd, 0x0c, 0x13, 0xec, 0x5f, 0x97, 0x44, 0x17, 0xc4, 0xa7, 0x7e, 0x3d, 0x64, 0x5d, 0x19, 0x73,
  0x60, 0x81, 0x4f, 0xdc, 0x22, 0x2a, 0x90, 0x88, 0x46, 0xee, 0xb8, 0x14, 0xde, 0x5e, 0x0b, 0xdb,
  0xe0, 0x32, 0x3a, 0x0a, 0x49, 0x06, 0x24, 0x5c, 0xc2, 0xd3, 0xac, 0x62, 0x91, 0x95, 0xe4, 0x79,
  0xe7, 0xc8, 0x37, 0x6d, 0x8d, 0xd5, 0x4e, 0xa9, 0x6c, 0x56, 0xf4, 0xea, 0x65, 0x7a, 0xae, 0x08,
  0xba, 0x78, 0x25, 0x2e, 0x1c, 0xa6, 0xb4, 0xc6, 0xe8, 0xdd, 0x74, 0x1f, 0x4b, 0xbd, 0x8b, 0x8a,
  0x70, 0x3e, 0xb5, 0x66, 0x48, 0x03, 0xf6, 0x0e, 0x61, 0x35, 0x57, 0xb9, 0x86, 0xc1, 0x1d, 0x9e,
  0xe1, 0xf8, 0x98, 0x11, 0x69, 0xd9, 0x8e, 0x94, 0x9b, 0x1e, 0x87, 0xe9, 0xce, 0x55, 0x28, 0xdf,
  0x8c, 0xa1, 0x89, 0x0d, 0xbf, 0xe6, 0x42, 0x68, 0x41, 0x99, 0x2d, 0x0f, 0xb0, 0x54, 0xbb, 0x16]

@[inline] def substitute (b : UInt8) : UInt8 := substitution.getD b.toNat 0

/-! ### The rounds -/

/-- Row `r` of the state, the bytes at `r`, `r + 4`, `r + 8` and `r + 12`, moves left by `r`. -/
def shiftRows : Bytes → Bytes
  | [a0, a1, a2, a3, b0, b1, b2, b3, c0, c1, c2, c3, d0, d1, d2, d3] =>
    [a0, b1, c2, d3, b0, c1, d2, a3, c0, d1, a2, b3, d0, a1, b2, c3]
  | state => state

/-- Each column is multiplied by the polynomial with coefficients 2, 1, 1, 3. -/
def mixColumns : Bytes → Bytes
  | a :: b :: c :: d :: rest =>
    (double a ^^^ double b ^^^ b ^^^ c ^^^ d) :: (a ^^^ double b ^^^ double c ^^^ c ^^^ d) ::
      (a ^^^ b ^^^ double c ^^^ double d ^^^ d) :: (double a ^^^ a ^^^ b ^^^ c ^^^ double d) ::
      mixColumns rest
  | state => state

/-- Runs the rounds for the given round keys; the one with the last key does not mix columns. -/
def rounds : List Bytes → Bytes → Bytes
  | [], state => state
  | [last], state => Bytes.xor (shiftRows (state.map substitute)) last
  | key :: keys, state => rounds keys (Bytes.xor (mixColumns (shiftRows (state.map substitute))) key)

/-! ### The key schedule -/

/-- The next eight words of the schedule, from the eight before them and the round constant. -/
def nextKeyWords (constant : UInt8) (words : List Bytes) : List Bytes :=
  match words with
  | [w0, w1, w2, w3, w4, w5, w6, w7] =>
    let rotated := (w7.drop 1 ++ w7.take 1).map substitute
    let v0 := Bytes.xor w0 (Bytes.xor rotated [constant, 0, 0, 0])
    let v1 := Bytes.xor w1 v0
    let v2 := Bytes.xor w2 v1
    let v3 := Bytes.xor w3 v2
    let v4 := Bytes.xor w4 (v3.map substitute)
    let v5 := Bytes.xor w5 v4
    let v6 := Bytes.xor w6 v5
    [v0, v1, v2, v3, v4, v5, v6, Bytes.xor w7 v6]
  | _ => words

/-- The words of the schedule, eight per step. -/
def keyWords : (steps : Nat) → (constant : UInt8) → List Bytes → List Bytes
  | 0, _, words => words
  | steps + 1, constant, words => words ++ keyWords steps (double constant) (nextKeyWords constant words)

def roundKeys (key : Octets 32) : List Bytes :=
  (Bytes.chunks 16 (keyWords 7 1 (Bytes.chunks 4 key.toList)).flatten).take 15

/-- Encrypts one block under expanded round keys. -/
def encryptWith (keys : List Bytes) (block : Bytes) : Bytes :=
  match keys with
  | [] => block
  | first :: rest => rounds rest (Bytes.xor block first)

end TapAccess.Aes
