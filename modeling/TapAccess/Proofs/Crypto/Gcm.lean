import TapAccess.Crypto.Gcm
import TapAccess.Proofs.Bytes

/-!
# Sealed messages are opened again

`unseal?_of_seal?`: under the key and the nonce that a message was sealed with, what was sealed opens to the
message. The tag is that of the ciphertext on both sides, and the keystream cancels itself. What remains to be
seen is that lengths fit: a round keeps the sixteen bytes of a block (`length_rounds`) because every round key
has as many (`length_of_mem_roundKeys`), so that there is enough keystream and the tag has sixteen bytes.
-/

namespace TapAccess

namespace Bytes

theorem length_of_mem_pieces {size count : Nat} {bytes : Bytes} (hlength : size * count ≤ bytes.length) :
    ∀ piece ∈ pieces size count bytes, piece.length = size := by
  induction count generalizing bytes with
  | zero => simp [pieces]
  | succ count ih =>
    rw [Nat.mul_succ] at hlength
    rw [pieces, List.forall_mem_cons]
    refine ⟨?_, ih ?_⟩
    · rw [List.length_take]
      omega
    · rw [List.length_drop]
      omega

theorem length_pieces (size count : Nat) (bytes : Bytes) : (pieces size count bytes).length = count := by
  induction count generalizing bytes with
  | zero => rfl
  | succ count ih => rw [pieces, List.length_cons, ih]

theorem count_chunks {size count : Nat} (hsize : 0 < size) : (size * count + size - 1) / size = count := by
  rw [Nat.add_sub_assoc hsize, Nat.mul_add_div hsize, Nat.div_eq_of_lt (by omega), Nat.add_zero]

theorem length_of_mem_chunks {size count : Nat} {bytes : Bytes} (hsize : 0 < size)
    (hlength : bytes.length = size * count) : ∀ chunk ∈ chunks size bytes, chunk.length = size := by
  unfold chunks
  rw [hlength, count_chunks hsize]
  exact length_of_mem_pieces (Nat.le_of_eq hlength.symm)

theorem length_chunks {size count : Nat} {bytes : Bytes} (hsize : 0 < size)
    (hlength : bytes.length = size * count) : (chunks size bytes).length = count := by
  rw [chunks, hlength, count_chunks hsize, length_pieces]

theorem length_flatten {size : Nat} {parts : List Bytes} (hparts : ∀ part ∈ parts, part.length = size) :
    parts.flatten.length = size * parts.length := by
  induction parts with
  | nil => rfl
  | cons part parts ih =>
    rw [List.forall_mem_cons] at hparts
    rw [List.flatten_cons, List.length_append, ih hparts.2, hparts.1, List.length_cons, Nat.mul_succ,
      Nat.add_comm]

end Bytes

namespace Aes

/-! ### Blocks -/

theorem length_shiftRows (state : Bytes) : (shiftRows state).length = state.length := by
  unfold shiftRows
  split <;> rfl

theorem length_mixColumns (state : Bytes) : (mixColumns state).length = state.length := by
  fun_induction mixColumns state with
  | case1 a b c d rest ih => simp only [List.length_cons, ih]
  | case2 state _ => rfl

theorem length_rounds {keys : List Bytes} {state : Bytes} (hkeys : ∀ key ∈ keys, key.length = 16)
    (hstate : state.length = 16) : (rounds keys state).length = 16 := by
  induction keys generalizing state with
  | nil => exact hstate
  | cons key keys ih =>
    rw [List.forall_mem_cons] at hkeys
    cases keys with
    | nil => rw [rounds, Bytes.length_xor, length_shiftRows, List.length_map, hstate, hkeys.1, Nat.min_self]
    | cons next keys =>
      have hround : (Bytes.xor (mixColumns (shiftRows (state.map substitute))) key).length = 16 := by
        rw [Bytes.length_xor, length_mixColumns, length_shiftRows, List.length_map, hstate, hkeys.1, Nat.min_self]
      exact ih hkeys.2 hround

theorem length_encryptWith {keys : List Bytes} {block : Bytes} (hkeys : ∀ key ∈ keys, key.length = 16)
    (hblock : block.length = 16) : (encryptWith keys block).length = 16 := by
  cases keys with
  | nil => exact hblock
  | cons first rest =>
    rw [List.forall_mem_cons] at hkeys
    refine length_rounds hkeys.2 ?_
    rw [Bytes.length_xor, hblock, hkeys.1, Nat.min_self]

/-! ### Round keys -/

theorem length_nextKeyWords (constant : UInt8) (words : List Bytes) :
    (nextKeyWords constant words).length = words.length := by
  unfold nextKeyWords
  split <;> rfl

theorem length_of_mem_nextKeyWords {constant : UInt8} {words : List Bytes}
    (hwords : ∀ word ∈ words, word.length = 4) : ∀ word ∈ nextKeyWords constant words, word.length = 4 := by
  unfold nextKeyWords
  split
  · simp only [List.forall_mem_cons] at hwords
    obtain ⟨h0, h1, h2, h3, h4, h5, h6, h7, -⟩ := hwords
    simp [Bytes.length_xor, h0, h1, h2, h3, h4, h5, h6, h7]
  · exact hwords

theorem length_keyWords (steps : Nat) (constant : UInt8) (words : List Bytes) :
    (keyWords steps constant words).length = words.length * (steps + 1) := by
  induction steps generalizing constant words with
  | zero => rw [keyWords, Nat.zero_add, Nat.mul_one]
  | succ steps ih =>
    rw [keyWords, List.length_append, ih, length_nextKeyWords, Nat.mul_succ _ (steps + 1), Nat.add_comm]

theorem length_of_mem_keyWords {steps : Nat} {constant : UInt8} {words : List Bytes}
    (hwords : ∀ word ∈ words, word.length = 4) : ∀ word ∈ keyWords steps constant words, word.length = 4 := by
  induction steps generalizing constant words with
  | zero => exact hwords
  | succ steps ih =>
    intro word hword
    rw [keyWords, List.mem_append] at hword
    rcases hword with hword | hword
    · exact hwords word hword
    · exact ih (length_of_mem_nextKeyWords hwords) word hword

theorem length_of_mem_roundKeys (key : Octets 32) : ∀ roundKey ∈ roundKeys key, roundKey.length = 16 := by
  have hkey : key.toList.length = 4 * 8 := key.length_toList
  have hcount : (keyWords 7 1 (Bytes.chunks 4 key.toList)).length = 64 := by
    rw [length_keyWords, Bytes.length_chunks (by decide) hkey]
  have hwords : ∀ word ∈ keyWords 7 1 (Bytes.chunks 4 key.toList), word.length = 4 :=
    length_of_mem_keyWords (Bytes.length_of_mem_chunks (by decide) hkey)
  have hflat : (keyWords 7 1 (Bytes.chunks 4 key.toList)).flatten.length = 16 * 16 := by
    rw [Bytes.length_flatten hwords, hcount]
  intro roundKey hmem
  exact Bytes.length_of_mem_chunks (by decide) hflat roundKey (List.mem_of_mem_take hmem)

end Aes

namespace Gcm

/-! ### Messages -/

variable {keys : List Bytes} (hkeys : ∀ key ∈ keys, key.length = 16) (nonce : Octets 12)

include hkeys

theorem length_encryptWith_counterBlock (i : Nat) : (Aes.encryptWith keys (counterBlock nonce i)).length = 16 := by
  refine Aes.length_encryptWith hkeys ?_
  rw [counterBlock, List.length_append, Octets.length_toList, Bytes.length_ofNat]

theorem le_length_keystream (length : Nat) : length ≤ (keystream keys nonce length).length := by
  have hblocks (count : Nat) : ((List.range count).flatMap fun i =>
      Aes.encryptWith keys (counterBlock nonce (i + 2))).length = 16 * count := by
    have hsize : ∀ block ∈ (List.range count).map fun i => Aes.encryptWith keys (counterBlock nonce (i + 2)),
        block.length = 16 := by
      simp [length_encryptWith_counterBlock hkeys]
    rw [List.flatMap_def, Bytes.length_flatten hsize, List.length_map, List.length_range]
  rw [keystream, hblocks]
  omega

theorem length_applyKeystream (message : Bytes) : (applyKeystream keys nonce message).length = message.length := by
  have hlong := le_length_keystream hkeys nonce message.length
  rw [applyKeystream, Bytes.length_xor]
  omega

theorem applyKeystream_applyKeystream (message : Bytes) :
    applyKeystream keys nonce (applyKeystream keys nonce message) = message := by
  have hsame := length_applyKeystream hkeys nonce message
  rw [applyKeystream, hsame, applyKeystream]
  exact Bytes.xor_xor_cancel (le_length_keystream hkeys nonce message.length)

theorem length_tag (ciphertext : Bytes) : (tag keys nonce ciphertext).length = 16 := by
  unfold tag
  rw [Bytes.length_xor, Bytes.length_ofNat, length_encryptWith_counterBlock hkeys, Nat.min_self]

omit hkeys

theorem exists_seal? {message : Bytes} (key : Octets 32) (nonce : Octets 12) (hshort : message.length ≤ maxLength) :
    ∃ sealed, seal? key nonce message = some sealed := ⟨_, if_pos hshort⟩

theorem length_of_seal? {key : Octets 32} {nonce : Octets 12} {message sealed : Bytes}
    (hsealed : seal? key nonce message = some sealed) : sealed.length = message.length + 16 := by
  have hkeys := Aes.length_of_mem_roundKeys key
  unfold seal? at hsealed
  split at hsealed
  · rw [Option.some.injEq] at hsealed
    rw [← hsealed, encrypt, List.length_append, length_applyKeystream hkeys, length_tag hkeys]
  · cases hsealed

theorem unseal?_of_seal? {key : Octets 32} {nonce : Octets 12} {message sealed : Bytes}
    (hsealed : seal? key nonce message = some sealed) : unseal? key nonce sealed = some message := by
  have hkeys := Aes.length_of_mem_roundKeys key
  unfold seal? at hsealed
  split at hsealed
  · next hshort =>
    rw [Option.some.injEq] at hsealed
    subst hsealed
    unfold encrypt unseal?
    generalize Aes.roundKeys key = keys at hkeys
    have hciphertext := length_applyKeystream hkeys nonce message
    have htag := length_tag hkeys nonce (applyKeystream keys nonce message)
    have hlength : (applyKeystream keys nonce message ++ tag keys nonce (applyKeystream keys nonce message)).length
        = (applyKeystream keys nonce message).length + 16 := by rw [List.length_append, htag]
    dsimp only
    rw [hlength, if_neg (by omega), Nat.add_sub_cancel, List.take_left, List.drop_left, if_pos rfl,
      applyKeystream_applyKeystream hkeys]
  · cases hsealed

end Gcm

end TapAccess
