import TapAccess.Bytes

/-!
# SHA-256

The message is padded to whole blocks of 64 bytes, each block is expanded into 64 words, and the
eight working words are turned once per word. `digest` is the hash of a byte string.
-/

namespace TapAccess.Sha256

/-! ### Words -/

/-- `x` rotated right by `n` bits. -/
@[inline] def rotr (x n : UInt32) : UInt32 := (x >>> n) ||| (x <<< (32 - n))

/-- The bits of `y` where `x` has ones and of `z` where it has zeros. -/
@[inline] def choose (x y z : UInt32) : UInt32 := (x &&& y) ^^^ (~~~x &&& z)

/-- The bits that at least two of the words have. -/
@[inline] def majority (x y z : UInt32) : UInt32 := (x &&& y) ^^^ (x &&& z) ^^^ (y &&& z)

/-- The mixing of the word `a` in a turn. -/
@[inline] def bigSigma0 (x : UInt32) : UInt32 := rotr x 2 ^^^ rotr x 13 ^^^ rotr x 22

/-- The mixing of the word `e` in a turn. -/
@[inline] def bigSigma1 (x : UInt32) : UInt32 := rotr x 6 ^^^ rotr x 11 ^^^ rotr x 25

/-- The mixing of the schedule word of fifteen turns before. -/
@[inline] def smallSigma0 (x : UInt32) : UInt32 := rotr x 7 ^^^ rotr x 18 ^^^ (x >>> 3)

/-- The mixing of the schedule word of two turns before. -/
@[inline] def smallSigma1 (x : UInt32) : UInt32 := rotr x 17 ^^^ rotr x 19 ^^^ (x >>> 10)

/-- The first 32 bits of the fractional parts of the cube roots of the first 64 primes. -/
def roundConstants : List UInt32 := [
  0x428a2f98, 0x71374491, 0xb5c0fbcf, 0xe9b5dba5, 0x3956c25b, 0x59f111f1, 0x923f82a4, 0xab1c5ed5,
  0xd807aa98, 0x12835b01, 0x243185be, 0x550c7dc3, 0x72be5d74, 0x80deb1fe, 0x9bdc06a7, 0xc19bf174,
  0xe49b69c1, 0xefbe4786, 0x0fc19dc6, 0x240ca1cc, 0x2de92c6f, 0x4a7484aa, 0x5cb0a9dc, 0x76f988da,
  0x983e5152, 0xa831c66d, 0xb00327c8, 0xbf597fc7, 0xc6e00bf3, 0xd5a79147, 0x06ca6351, 0x14292967,
  0x27b70a85, 0x2e1b2138, 0x4d2c6dfc, 0x53380d13, 0x650a7354, 0x766a0abb, 0x81c2c92e, 0x92722c85,
  0xa2bfe8a1, 0xa81a664b, 0xc24b8b70, 0xc76c51a3, 0xd192e819, 0xd6990624, 0xf40e3585, 0x106aa070,
  0x19a4c116, 0x1e376c08, 0x2748774c, 0x34b0bcb5, 0x391c0cb3, 0x4ed8aa4a, 0x5b9cca4f, 0x682e6ff3,
  0x748f82ee, 0x78a5636f, 0x84c87814, 0x8cc70208, 0x90befffa, 0xa4506ceb, 0xbef9a3f7, 0xc67178f2]

/-- The eight words that are carried from block to block. -/
structure Working where
  (a b c d e f g h : UInt32)
  deriving DecidableEq

namespace Working

/-- The first 32 bits of the fractional parts of the square roots of the first eight primes. -/
def start : Working :=
  ⟨0x6a09e667, 0xbb67ae85, 0x3c6ef372, 0xa54ff53a, 0x510e527f, 0x9b05688c, 0x1f83d9ab, 0x5be0cd19⟩

def turn (s : Working) (k w : UInt32) : Working :=
  let t := s.h + bigSigma1 s.e + choose s.e s.f s.g + k + w
  ⟨t + bigSigma0 s.a + majority s.a s.b s.c, s.a, s.b, s.c, s.d + t, s.e, s.f, s.g⟩

def add (s t : Working) : Working :=
  ⟨s.a + t.a, s.b + t.b, s.c + t.c, s.d + t.d, s.e + t.e, s.f + t.f, s.g + t.g, s.h + t.h⟩

def words (s : Working) : List UInt32 := [s.a, s.b, s.c, s.d, s.e, s.f, s.g, s.h]

end Working

/-! ### Blocks -/

/-- The schedule word that follows a window of the sixteen words before it. -/
def nextWord : List UInt32 → UInt32
  | [w0, w1, _, _, _, _, _, _, _, w9, _, _, _, _, w14, _] =>
    smallSigma1 w14 + w9 + smallSigma0 w1 + w0
  | _ => 0

/-- Turns once per constant, sliding the window of schedule words along. -/
def turns : List UInt32 → List UInt32 → Working → Working
  | k :: ks, w :: window, s =>
    turns ks (window ++ [nextWord (w :: window)]) (s.turn k w)
  | _, _, s => s

def wordsOf : Bytes → List UInt32
  | b0 :: b1 :: b2 :: b3 :: rest =>
    ((b0.toUInt32 <<< 24) ||| (b1.toUInt32 <<< 16) ||| (b2.toUInt32 <<< 8) ||| b3.toUInt32) ::
      wordsOf rest
  | _ => []

def bytesOf (w : UInt32) : Bytes :=
  [(w >>> 24).toUInt8, (w >>> 16).toUInt8, (w >>> 8).toUInt8, w.toUInt8]

def compress (s : Working) (block : Bytes) : Working :=
  s.add (turns roundConstants (wordsOf block) s)

/-- A one bit, zeros up to eight bytes short of a whole block, and the length in bits. -/
def padding (length : Nat) : Bytes :=
  0x80 :: (List.replicate ((119 - length % 64) % 64) 0 ++ Bytes.ofNat 8 (8 * length))

def digest (message : Bytes) : Octets 32 :=
  let blocks := Bytes.chunks 64 (message ++ padding message.length)
  let s := blocks.foldl compress Working.start
  ⟨s.words.flatMap bytesOf, by simp [Working.words, bytesOf]⟩

end TapAccess.Sha256
