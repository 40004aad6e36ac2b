import Mathlib.Algebra.BigOperators.Fin
import Mathlib.Algebra.Order.Floor.Div
import Mathlib.Data.Fintype.BigOperators
import TapAccess.Random

/-!
# Choosing without favour

A choice among several values takes one word after the other until one of them stands for an index. The words that
stand for the same index are consecutive, and there are as many of them for every index (`card_wordsFor`): a power of
two, `2 ^ leadingZeros k` when there are `k` values. No word stands for two indices or for one that is too large, and
the words that are left over are refused. So each index is reached by equally many sequences of words, however many it
takes (`card_runs`).

`choose?_cases` says what a choice draws: nothing when there is nothing to choose, and otherwise a sequence of words
that ends in the first one that is not refused.
-/

namespace TapAccess.RandomSource

/-! ### The words of a source -/

/-- The source after so many bytes more. -/
def skip (r : RandomSource) (count : Nat) : RandomSource := { r with drawn := r.drawn + count }

/-- The word that comes behind `n` others. -/
def wordAt (r : RandomSource) (n : Nat) : Nat := (r.skip (4 * n)).word.1

theorem skip_skip (r : RandomSource) (first second : Nat) : (r.skip first).skip second = r.skip (first + second) := by
  rw [skip, skip, skip, Nat.add_assoc]

theorem word_eq (r : RandomSource) : r.word = (r.wordAt 0, r.skip 4) := rfl

theorem wordAt_skip (r : RandomSource) (n : Nat) : (r.skip 4).wordAt n = r.wordAt (n + 1) := by
  rw [wordAt, skip_skip, wordAt, Nat.mul_succ, Nat.add_comm 4]

theorem wordAt_eq (r : RandomSource) (n : Nat) :
    r.wordAt n = (r.byte (r.drawn + 4 * n)).toNat + 256 * (r.byte (r.drawn + 4 * n + 1)).toNat
      + 256 ^ 2 * (r.byte (r.drawn + 4 * n + 2)).toNat + 256 ^ 3 * (r.byte (r.drawn + 4 * n + 3)).toNat := by
  have hbytes : r.wordAt n = Bytes.toNat [r.byte (r.drawn + 4 * n + 3), r.byte (r.drawn + 4 * n + 2),
      r.byte (r.drawn + 4 * n + 1), r.byte (r.drawn + 4 * n)] := rfl
  rw [hbytes]
  simp only [Bytes.toNat, List.foldl_cons, List.foldl_nil]
  omega

theorem wordAt_lt (r : RandomSource) (n : Nat) : r.wordAt n < UInt32.size := by
  have h0 := (r.byte (r.drawn + 4 * n)).toNat_lt
  have h1 := (r.byte (r.drawn + 4 * n + 1)).toNat_lt
  have h2 := (r.byte (r.drawn + 4 * n + 2)).toNat_lt
  have h3 := (r.byte (r.drawn + 4 * n + 3)).toNat_lt
  rw [wordAt_eq, UInt32.size]
  omega

/-! ### The words of an index -/

variable {k : Nat}

theorem leadingZeros_bounds (hpos : 0 < k) (hk : k < UInt32.size) :
    UInt32.size / 2 ≤ k * 2 ^ leadingZeros k ∧ k * 2 ^ leadingZeros k < UInt32.size := by
  have hlog : k.log2 ≤ 31 := Nat.le_of_lt_succ ((Nat.log2_lt hpos.ne').mpr hk)
  have hlow := Nat.log2_self_le hpos.ne'
  have hhigh := Nat.lt_log2_self (n := k)
  have hpow : 2 ^ k.log2 * 2 ^ leadingZeros k = 2 ^ 31 := by
    rw [← Nat.pow_add, leadingZeros, Nat.add_sub_cancel' hlog]
  constructor
  · calc UInt32.size / 2 = 2 ^ k.log2 * 2 ^ leadingZeros k := hpow.symm
      _ ≤ k * 2 ^ leadingZeros k := Nat.mul_le_mul_right _ hlow
  · calc k * 2 ^ leadingZeros k < 2 ^ (k.log2 + 1) * 2 ^ leadingZeros k :=
        Nat.mul_lt_mul_of_pos_right hhigh (Nat.two_pow_pos _)
      _ = UInt32.size := by rw [Nat.pow_succ, Nat.mul_right_comm, hpow]; rfl

/-- The multiples of `k` that begin at an index stand for it, as far as the zone goes. -/
theorem indexOfWord?_eq_some_iff (hpos : 0 < k) (hk : k < UInt32.size) {word i : Nat} :
    indexOfWord? k word = some i ↔
      i * UInt32.size ≤ k * word ∧ k * word < i * UInt32.size + k * 2 ^ leadingZeros k := by
  obtain ⟨hlow, hhigh⟩ := leadingZeros_bounds hpos hk
  have hzone : (k <<< leadingZeros k - 1) % UInt32.size = k * 2 ^ leadingZeros k - 1 := by
    rw [Nat.shiftLeft_eq, Nat.mod_eq_of_lt (by omega)]
  unfold indexOfWord?
  rw [hzone, Nat.mul_comm word k]
  generalize k * 2 ^ leadingZeros k = zone at hlow hhigh ⊢
  generalize k * word = product
  have hsize : UInt32.size = 4294967296 := rfl
  rw [hsize] at hlow hhigh ⊢
  dsimp only
  split
  · rw [Option.some.injEq]
    omega
  · constructor
    · intro hnone
      cases hnone
    · omega

/-- The words that stand for an index. -/
def wordsFor (k i : Nat) : Finset Nat := (Finset.range UInt32.size).filter fun word => indexOfWord? k word = some i

/-- The words that are refused. -/
def refused (k : Nat) : Finset Nat := (Finset.range UInt32.size).filter fun word => indexOfWord? k word = none

/-- The first word that stands for an index. -/
def firstWord (k i : Nat) : Nat := (i * UInt32.size) ⌈/⌉ k

theorem wordsFor_eq (hpos : 0 < k) (hk : k < UInt32.size) {i : Nat} (hi : i < k) :
    wordsFor k i = Finset.Ico (firstWord k i) (firstWord k i + 2 ^ leadingZeros k) := by
  obtain ⟨-, hhigh⟩ := leadingZeros_bounds hpos hk
  have hlast : (i + 1) * UInt32.size ≤ k * UInt32.size := Nat.mul_le_mul_right _ hi
  have hfrom (word : Nat) : i * UInt32.size ≤ k * word ↔ firstWord k i ≤ word :=
    (ceilDiv_le_iff_le_mul hpos).symm
  -- the same for the end of the zone, counted from the words that come before it
  have hbelow (word : Nat) : k * word < i * UInt32.size + k * 2 ^ leadingZeros k ↔
      word < firstWord k i + 2 ^ leadingZeros k := by
    rcases Nat.lt_or_ge word (2 ^ leadingZeros k) with hlt | hge
    · have hmul := Nat.mul_lt_mul_of_pos_left hlt hpos
      exact iff_of_true (by omega) (by omega)
    · obtain ⟨more, rfl⟩ := Nat.exists_eq_add_of_le hge
      have hmore := hfrom more
      rw [Nat.mul_add]
      omega
  ext word
  rw [wordsFor, Finset.mem_filter, Finset.mem_range, Finset.mem_Ico, indexOfWord?_eq_some_iff hpos hk, hfrom, ← hbelow]
  refine ⟨fun hword => hword.2, fun hword => ⟨?_, hword⟩⟩
  refine Nat.lt_of_mul_lt_mul_left (a := k) ?_
  rw [Nat.add_mul] at hlast
  omega

theorem card_wordsFor (hpos : 0 < k) (hk : k < UInt32.size) {i : Nat} (hi : i < k) :
    (wordsFor k i).card = 2 ^ leadingZeros k := by
  rw [wordsFor_eq hpos hk hi, Nat.card_Ico, Nat.add_sub_cancel_left]

theorem index_lt (hpos : 0 < k) (hk : k < UInt32.size) {word i : Nat} (hword : word < UInt32.size)
    (hi : indexOfWord? k word = some i) : i < k := by
  obtain ⟨hfrom, -⟩ := (indexOfWord?_eq_some_iff hpos hk).mp hi
  have hbelow : k * word < k * UInt32.size := Nat.mul_lt_mul_of_pos_left hword hpos
  exact Nat.lt_of_mul_lt_mul_right (Nat.lt_of_le_of_lt hfrom hbelow)

theorem card_refused (hpos : 0 < k) (hk : k < UInt32.size) :
    (refused k).card = UInt32.size - k * 2 ^ leadingZeros k := by
  have hindices : (Finset.range UInt32.size).filter (fun word => ¬ indexOfWord? k word = none) =
      (Finset.range k).biUnion (wordsFor k) := by
    ext word
    simp only [wordsFor, Finset.mem_filter, Finset.mem_biUnion, Finset.mem_range]
    constructor
    · rintro ⟨hword, hsome⟩
      obtain ⟨i, hi⟩ := Option.ne_none_iff_exists'.mp hsome
      exact ⟨i, index_lt hpos hk hword hi, hword, hi⟩
    · rintro ⟨i, -, hword, hi⟩
      rw [hi]
      exact ⟨hword, nofun⟩
  have hdisjoint : ∀ i ∈ Finset.range k, ∀ j ∈ Finset.range k, i ≠ j → Disjoint (wordsFor k i) (wordsFor k j) := by
    intro i _ j _ hne
    rw [Finset.disjoint_left]
    intro word hword hother
    have hi := (Finset.mem_filter.mp hword).2
    rw [(Finset.mem_filter.mp hother).2, Option.some.injEq] at hi
    exact hne hi.symm
  have hcard : ((Finset.range k).biUnion (wordsFor k)).card = k * 2 ^ leadingZeros k := by
    rw [Finset.card_biUnion hdisjoint, Finset.sum_congr rfl fun i hi => card_wordsFor hpos hk (Finset.mem_range.mp hi),
      Finset.sum_const, Finset.card_range, smul_eq_mul]
  have hall := Finset.card_filter_add_card_filter_not (s := Finset.range UInt32.size)
    (fun word => indexOfWord? k word = none)
  rw [hindices, hcard, Finset.card_range] at hall
  exact Nat.eq_sub_of_add_eq hall

/-! ### Sequences of words -/

/-- The sequences of `n` words that are refused and one that stands for the index. -/
def runs (k n i : Nat) : Finset (Fin (n + 1) → Nat) :=
  Fintype.piFinset fun place => if place = Fin.last n then wordsFor k i else refused k

/-- Each index is reached by as many sequences of words as any other. -/
theorem card_runs (hpos : 0 < k) (hk : k < UInt32.size) (n : Nat) {i : Nat} (hi : i < k) :
    (runs k n i).card = (refused k).card ^ n * 2 ^ leadingZeros k := by
  rw [runs, Fintype.card_piFinset, Fin.prod_univ_castSucc, if_pos rfl, card_wordsFor hpos hk hi]
  congr 1
  have hearlier (place : Fin n) :
      (if place.castSucc = Fin.last n then wordsFor k i else refused k).card = (refused k).card := by
    rw [if_neg (Fin.castSucc_lt_last place).ne]
  rw [Finset.prod_congr rfl fun place _ => hearlier place, Finset.prod_const, Finset.card_univ, Fintype.card_fin]

/-- The indices below `k` share the words evenly. -/
structure Evenly (k : Nat) : Prop where
  /-- Behind its leading zeros, `k` fills 32 binary digits and no more. -/
  fills : UInt32.size / 2 ≤ k * 2 ^ leadingZeros k ∧ k * 2 ^ leadingZeros k < UInt32.size
  below : ∀ word < UInt32.size, ∀ i, indexOfWord? k word = some i → i < k
  each : ∀ i < k, (wordsFor k i).card = 2 ^ leadingZeros k
  rest : (refused k).card = UInt32.size - k * 2 ^ leadingZeros k
  reached : ∀ n, ∀ i < k, (runs k n i).card = (refused k).card ^ n * 2 ^ leadingZeros k

theorem evenly (hpos : 0 < k) (hk : k < UInt32.size) : Evenly k where
  fills := leadingZeros_bounds hpos hk
  below _ hword _ := index_lt hpos hk hword
  each _ := card_wordsFor hpos hk
  rest := card_refused hpos hk
  reached n _ := card_runs hpos hk n

/-- The first words of a source, one more than `n`. -/
def words (r : RandomSource) (n : Nat) : Fin (n + 1) → Nat := fun place => r.wordAt place

theorem words_mem_runs_iff (r : RandomSource) (n i : Nat) :
    r.words n ∈ runs k n i ↔
      (∀ m < n, indexOfWord? k (r.wordAt m) = none) ∧ indexOfWord? k (r.wordAt n) = some i := by
  have hword (m : Nat) : r.wordAt m ∈ Finset.range UInt32.size := Finset.mem_range.mpr (r.wordAt_lt m)
  rw [runs, Fintype.mem_piFinset]
  constructor
  · intro hrun
    refine ⟨fun m hm => ?_, ?_⟩
    · have hplace := hrun (Fin.castSucc ⟨m, hm⟩)
      rw [if_neg (Fin.castSucc_lt_last _).ne] at hplace
      exact (Finset.mem_filter.mp hplace).2
    · have hplace := hrun (Fin.last n)
      rw [if_pos rfl] at hplace
      exact (Finset.mem_filter.mp hplace).2
  · rintro ⟨hrefused, hlast⟩ place
    split
    · next hplace =>
      rw [hplace]
      exact Finset.mem_filter.mpr ⟨hword n, hlast⟩
    · next hplace =>
      have hlt : place.val < n := Nat.lt_of_le_of_ne (Nat.le_of_lt_succ place.isLt) fun heq => hplace (Fin.ext heq)
      exact Finset.mem_filter.mpr ⟨hword place, hrefused place hlt⟩

/-! ### Draws -/

/-- One word after the other is refused, as many as may be drawn. -/
def Starves (r : RandomSource) (k draws : Nat) : Prop := ∀ m < draws, indexOfWord? k (r.wordAt m) = none

theorem indexWithin_cases (r : RandomSource) (k draws : Nat) :
    (∃ n i, n < draws ∧ r.words n ∈ runs k n i ∧ r.indexWithin k draws = (some i, r.skip (4 * (n + 1)))) ∨
    r.Starves k draws ∧ (r.indexWithin k draws).1 = none := by
  induction draws generalizing r with
  | zero => exact Or.inr ⟨fun m hm => absurd hm (Nat.not_lt_zero m), rfl⟩
  | succ draws ih =>
    rw [indexWithin, word_eq]
    dsimp only
    cases hfirst : indexOfWord? k (r.wordAt 0) with
    | some i =>
      refine Or.inl ⟨0, i, Nat.succ_pos _, ?_, rfl⟩
      rw [words_mem_runs_iff]
      exact ⟨fun m hm => absurd hm (Nat.not_lt_zero m), hfirst⟩
    | none =>
      -- what holds of the words behind the first one holds of all of them
      have hrefused {count : Nat} (hlater : ∀ m < count, indexOfWord? k ((r.skip 4).wordAt m) = none) :
          ∀ m < count + 1, indexOfWord? k (r.wordAt m) = none := by
        intro m hm
        cases m with
        | zero => exact hfirst
        | succ m =>
          rw [← wordAt_skip]
          exact hlater m (Nat.lt_of_succ_lt_succ hm)
      rcases ih (r.skip 4) with ⟨n, i, hn, hrun, heq⟩ | ⟨hstarves, hnone⟩
      · obtain ⟨hlater, hlast⟩ := (words_mem_runs_iff _ n i).mp hrun
        rw [wordAt_skip] at hlast
        refine Or.inl ⟨n + 1, i, Nat.succ_lt_succ hn, (r.words_mem_runs_iff _ i).mpr ⟨hrefused hlater, hlast⟩, ?_⟩
        dsimp only
        rw [heq, skip_skip, Nat.mul_succ 4 (n + 1), Nat.add_comm 4]
      · exact Or.inr ⟨hrefused hstarves, hnone⟩

/-- What a choice from a source comes to, and the source that it leaves; `usual` stands in for a value when there is
none. -/
inductive Chooses {α : Type} (r : RandomSource) (usual : α) : List α → α → RandomSource → Prop
  | nothing : Chooses r usual [] usual r
  | only (value : α) : Chooses r usual [value] value r
  | among {values : List α} {n i : Nat} {value : α} (hseveral : 2 ≤ values.length)
      (hrun : r.words n ∈ runs values.length n i) (hvalue : values[i]? = some value) :
      Chooses r usual values value (r.skip (4 * (n + 1)))

theorem Chooses.among_of_several {α : Type} {r after : RandomSource} {usual value : α} {values : List α}
    (hchooses : r.Chooses usual values value after) (hseveral : 2 ≤ values.length) :
    ∃ n i, r.words n ∈ runs values.length n i ∧ values[i]? = some value ∧ after = r.skip (4 * (n + 1)) := by
  cases hchooses with
  | nothing => exact absurd hseveral (Nat.not_succ_le_zero 1)
  | only => exact absurd hseveral (Nat.not_succ_le_self 1)
  | among _ hrun hvalue => exact ⟨_, _, hrun, hvalue, rfl⟩

theorem keyPair_of_inRange {r : RandomSource} (hpos : 0 < (r.octets 32).1.toNat) (hlt : (r.octets 32).1.toNat < P256.n) :
    r.keyPair.2 = r.skip 32 := by
  have hdraws : maxDraws = UInt64.size - 1 + 1 := by decide
  have hstep : r.privateKeyWithin maxDraws = (some ⟨_, hpos, hlt⟩, r.skip 32) := by
    rw [hdraws, privateKeyWithin]
    dsimp only
    rw [PrivateKey.ofNat?, dif_pos ⟨hpos, hlt⟩]
    rfl
  unfold keyPair
  rw [hstep]

/-- A choice ends, unless every word that may be drawn is refused. -/
theorem choose?_cases {α : Type} (r : RandomSource) (usual : α) {values : List α} (hlength : values.length < UInt32.size) :
    r.Chooses usual values ((r.choose? values).1.getD usual) (r.choose? values).2 ∨
    2 ≤ values.length ∧ r.Starves values.length maxDraws := by
  match values with
  | [] => exact Or.inl .nothing
  | [value] => exact Or.inl (.only value)
  | first :: second :: more =>
    have hseveral : 2 ≤ (first :: second :: more).length := by
      rw [List.length_cons, List.length_cons]
      exact Nat.le_add_left 2 more.length
    have hchoose : r.choose? (first :: second :: more) =
        (((r.indexWithin (first :: second :: more).length maxDraws).1.bind ((first :: second :: more)[·]?)),
          (r.indexWithin (first :: second :: more).length maxDraws).2) := rfl
    generalize first :: second :: more = values at hlength hseveral hchoose ⊢
    rw [hchoose]
    rcases r.indexWithin_cases values.length maxDraws with ⟨n, i, -, hrun, heq⟩ | ⟨hstarves, -⟩
    · have hi : i < values.length :=
        index_lt (by omega) hlength (r.wordAt_lt n) ((words_mem_runs_iff _ _ _).mp hrun).2
      have hvalue := List.getElem?_eq_getElem hi
      rw [heq, Option.bind_some, hvalue]
      exact Or.inl (.among hseveral hrun hvalue)
    · exact Or.inr ⟨hseveral, hstarves⟩

end TapAccess.RandomSource
