import Mathlib.Logic.ExistsUnique
import TapAccess.KeySchedule
import TapAccess.Proofs.Bytes

/-!
# Key blocks

The bytes that are derived for a channel are cut into pieces: a cryptogram and four keys for a fast transaction, five
keys for a standard one. `blocks_partitioned`: one behind the other, the pieces are the block. So every byte of a block
stands in one piece, at one place (`IsPartition.existsUnique_place`), and the keys do not depend on the bytes of the
cryptogram, which everyone can read.
-/

namespace TapAccess

/-! ### Slices -/

namespace Octets

variable {n : Nat}

theorem slice_append_drop (block : Octets n) {start size stop : Nat} (h : start + size ≤ n)
    (hstop : start + size = stop) :
    (block.slice start size h).toList ++ block.toList.drop stop = block.toList.drop start := by
  rw [slice, ← hstop, ← List.drop_drop, List.take_append_drop]

theorem slice_eq_of_drop {block block' : Octets n} {m start size : Nat} (h : start + size ≤ n) (hm : m ≤ start)
    (hdrop : block.toList.drop m = block'.toList.drop m) : block.slice start size h = block'.slice start size h := by
  obtain ⟨k, rfl⟩ := Nat.exists_eq_add_of_le hm
  apply Octets.ext
  show (block.toList.drop (m + k)).take size = (block'.toList.drop (m + k)).take size
  rw [← List.drop_drop, hdrop, List.drop_drop]

theorem drop_toList (block : Octets n) : block.toList.drop n = [] := List.drop_of_length_le (by simp)

/-- A block that is cut into a first piece and four keys behind it, each from where the one before it ends. -/
theorem flatten_slices (block : Octets n) (first : Nat) (hn : first + 32 + 32 + 32 + 32 = n) :
    (block.slice 0 first).toList ++ ((block.slice first 32).toList ++ ((block.slice (first + 32) 32).toList ++
      ((block.slice (first + 32 + 32) 32).toList ++ (block.slice (first + 32 + 32 + 32) 32).toList))) =
        block.toList := by
  rw [← List.append_nil (block.slice (first + 32 + 32 + 32) 32).toList, ← block.drop_toList]
  rw [block.slice_append_drop _ hn, block.slice_append_drop _ rfl, block.slice_append_drop _ rfl,
    block.slice_append_drop _ rfl, block.slice_append_drop _ (Nat.zero_add first), List.drop_zero]

/-- The bytes of which one differs from all others. -/
def marked (i : Fin n) : Octets n := .ofFn n fun k => if k = i then 1 else 0

theorem marked_eq_one_iff {i : Fin n} {k : Nat} : (marked i).toList[k]? = some 1 ↔ k = i := by
  have hbyte (j : Nat) : (if j = i.val then (1 : UInt8) else 0) = 1 ↔ j = i := by
    by_cases hj : j = i <;> simp [hj]
  rw [marked, ofFn, List.getElem?_map, Option.map_eq_some_iff]
  simp only [hbyte, List.getElem?_eq_some_iff, List.getElem_range, List.length_range]
  constructor
  · rintro ⟨j, ⟨-, rfl⟩, rfl⟩
    rfl
  · rintro rfl
    exact ⟨i, ⟨i.isLt, rfl⟩, rfl⟩

end Octets

/-! ### Places -/

/-- The byte in a place: in one of the pieces, and somewhere in it. -/
def byteAt? (pieces : List Bytes) (place : Nat × Nat) : Option UInt8 := pieces[place.1]? >>= (·[place.2]?)

/-- The pieces that a block is cut into. Their sizes are fixed, and one behind the other they are the block. -/
structure IsPartition {n : Nat} (cut : Octets n → List Bytes) : Prop where
  flatten : ∀ block, (cut block).flatten = block.toList
  sizes : ∀ block block', (cut block).map List.length = (cut block').map List.length

/-- Where a byte comes to stand in pieces of these sizes. -/
def placeOf : (sizes : List Nat) → (i : Nat) → Nat × Nat
  | [], i => (0, i)
  | size :: sizes, i => if i < size then (0, i) else ((placeOf sizes (i - size)).1 + 1, (placeOf sizes (i - size)).2)

theorem byteAt?_placeOf (pieces : List Bytes) (i : Nat) :
    byteAt? pieces (placeOf (pieces.map List.length) i) = pieces.flatten[i]? := by
  induction pieces generalizing i with
  | nil => rfl
  | cons piece pieces ih =>
    rw [List.map_cons, placeOf, List.flatten_cons]
    by_cases hin : i < piece.length
    · rw [if_pos hin, List.getElem?_append_left hin]
      rfl
    · rw [if_neg hin, List.getElem?_append_right (Nat.not_lt.mp hin), ← ih]
      rfl

theorem exists_placeOf {pieces : List Bytes} {place : Nat × Nat} {b : UInt8} (hplace : byteAt? pieces place = some b) :
    ∃ i, place = placeOf (pieces.map List.length) i := by
  induction pieces generalizing place with
  | nil => cases hplace
  | cons piece pieces ih =>
    obtain ⟨number, offset⟩ := place
    cases number with
    | zero =>
      obtain ⟨hoffset, -⟩ := List.getElem?_eq_some_iff.mp (show piece[offset]? = some b from hplace)
      refine ⟨offset, ?_⟩
      rw [List.map_cons, placeOf, if_pos hoffset]
    | succ number =>
      obtain ⟨i, hi⟩ := ih (show byteAt? pieces (number, offset) = some b from hplace)
      refine ⟨piece.length + i, ?_⟩
      rw [List.map_cons, placeOf, if_neg (Nat.not_lt.mpr (Nat.le_add_right _ _)), Nat.add_sub_cancel_left, ← hi]

/-- A byte of the block stands in exactly one place, whatever the bytes are. -/
theorem IsPartition.existsUnique_place {n : Nat} {cut : Octets n → List Bytes} (hcut : IsPartition cut) (i : Fin n) :
    ∃! place, ∀ block, byteAt? (cut block) place = block.toList[i.val]? := by
  refine ⟨placeOf ((cut (.marked i)).map List.length) i, fun block => ?_, fun place hplace => ?_⟩
  · rw [hcut.sizes (.marked i) block, byteAt?_placeOf, hcut.flatten]
  · -- in this block the byte that stands in the place can be no other one
    have hmarked := (hplace (.marked i)).trans (Octets.marked_eq_one_iff.mpr rfl)
    obtain ⟨k, rfl⟩ := exists_placeOf hmarked
    rw [byteAt?_placeOf, hcut.flatten, Octets.marked_eq_one_iff] at hmarked
    rw [hmarked]

/-! ### Channel keys -/

/-- All keys, in the order in which they are cut off. Without a step-up key nothing stands in its place. -/
def ChannelKeys.pieces (keys : ChannelKeys) : List Bytes :=
  [keys.exchangeReader.toList, keys.exchangeDevice.toList, keys.stepUp.elim [] Octets.toList, keys.ble.toList,
    keys.ur.toList]

namespace ChannelKeys

/-- The cryptogram and the keys of a fast transaction. -/
def fastPieces (block : Octets 144) : List Bytes := (Cryptogram.ofFastBlock block).toList :: (ofFastBlock block).pieces

/-- The keys of a standard transaction. -/
def volatilePieces (block : Octets 160) : List Bytes := (ofVolatileBlock block).pieces

theorem isPartition_fastPieces : IsPartition fastPieces where
  flatten block := by
    rw [← block.flatten_slices 16 rfl, ← List.append_nil (block.slice 112 32).toList]
    rfl
  sizes block block' := by
    simp only [fastPieces, pieces, ofFastBlock, List.map_cons, List.map_nil, Option.elim_none, Octets.length_toList]

theorem isPartition_volatilePieces : IsPartition volatilePieces where
  flatten block := by
    rw [← block.flatten_slices 32 rfl, ← List.append_nil (block.slice 128 32).toList]
    rfl
  sizes block block' := by
    simp only [volatilePieces, pieces, ofVolatileBlock, List.map_cons, List.map_nil, Option.elim_some,
      Octets.length_toList]

theorem ofFastBlock_eq_of_drop {block block' : Octets 144} (hdrop : block.toList.drop 16 = block'.toList.drop 16) :
    ofFastBlock block = ofFastBlock block' := by
  have hslice (start : Nat) (h : start + 32 ≤ 144) (hm : 16 ≤ start) :
      block.slice start 32 h = block'.slice start 32 h := Octets.slice_eq_of_drop h hm hdrop
  rw [ofFastBlock, ofFastBlock, hslice 16 _ (by decide), hslice 48 _ (by decide), hslice 80 _ (by decide),
    hslice 112 _ (by decide)]

/-- One behind the other, the cryptogram and the keys of a fast transaction are the block that they are cut from, and
so are the keys of a standard one. Every byte of a block stands in one place and no other, another cryptogram changes
no key, and no two blocks are cut into the same pieces. This is how both kinds of derived keys are cut. -/
theorem blocks_partitioned :
    (∀ block : Octets 144,
      ((Cryptogram.ofFastBlock block).toList :: (ofFastBlock block).pieces).flatten = block.toList) ∧
    (∀ block : Octets 160, (ofVolatileBlock block).pieces.flatten = block.toList) ∧
    (∀ i : Fin 144, ∃! place, ∀ block : Octets 144,
      byteAt? ((Cryptogram.ofFastBlock block).toList :: (ofFastBlock block).pieces) place = block.toList[i.val]?) ∧
    (∀ i : Fin 160, ∃! place, ∀ block : Octets 160,
      byteAt? (ofVolatileBlock block).pieces place = block.toList[i.val]?) ∧
    (∀ (other : Cryptogram) (block : Octets 144),
      Cryptogram.ofFastBlock (other.append (block.slice 16 128)) = other ∧
      ofFastBlock (other.append (block.slice 16 128)) = ofFastBlock block) ∧
    (Function.Injective fun block : Octets 144 => (Cryptogram.ofFastBlock block, ofFastBlock block)) ∧
    Function.Injective ofVolatileBlock ∧
    (∀ d : FastDerivation, (d.cryptogram.toList :: d.keys.pieces).flatten = d.block.toList) ∧
    (∀ (d : StandardDerivation) (secret : Octets 32),
      (d.channelKeys secret).pieces.flatten = (d.derive secret .volatile 160).toList) := by
  have hfast := isPartition_fastPieces.flatten
  have hvolatile := isPartition_volatilePieces.flatten
  refine ⟨hfast, hvolatile, isPartition_fastPieces.existsUnique_place, isPartition_volatilePieces.existsUnique_place,
    fun other block => ⟨?_, ?_⟩, fun block block' hsame => ?_, fun block block' hsame => ?_, fun d => hfast d.block,
    fun d secret => hvolatile (d.derive secret .volatile 160)⟩
  · exact Octets.slice_append_left other (block.slice 16 128) _
  · apply ofFastBlock_eq_of_drop
    calc (other.append (block.slice 16 128)).toList.drop 16
        = (block.slice 16 128).toList := List.drop_left' other.length_toList
      _ = (block.slice 16 128).toList ++ block.toList.drop 144 := by rw [block.drop_toList, List.append_nil]
      _ = block.toList.drop 16 := block.slice_append_drop _ rfl
  · obtain ⟨hcryptogram, hkeys⟩ := Prod.mk.inj hsame
    apply Octets.ext
    rw [← hfast block, ← hfast block', fastPieces, fastPieces, hcryptogram, hkeys]
  · apply Octets.ext
    rw [← hvolatile block, ← hvolatile block', volatilePieces, volatilePieces, hsame]

end ChannelKeys

end TapAccess
