import Mathlib.Algebra.BigOperators.Group.Finset.Basic
import TapAccess.Proofs.CredentialStore

/-!
# How much a store holds

The holdings of a store are what remains of it without its secrets: which groups are enrolled and with how many
credentials each, and which readers share a key. They decide what a store finds (`CredentialStore.isSome_findGroup`
and its like), and, as no key stands in a table twice, what its summary says (`CredentialStore.summary_eq`).
-/

namespace TapAccess

/-! ### Keys of a table -/

namespace Table

variable {κ ν : Type} [DecidableEq κ]

def keys (t : Table κ ν) : List κ := t.map (·.1)

theorem isSome_get?_iff {t : Table κ ν} {k : κ} : (t.get? k).isSome ↔ k ∈ t.keys := by
  induction t with
  | nil => simp [get?, keys]
  | cons entry rest ih =>
    rw [get?_cons, keys, List.map_cons, List.mem_cons]
    by_cases hkey : entry.1 = k
    · simp [hkey]
    · rw [if_neg hkey, ih]
      simp [keys, Ne.symm hkey]

theorem keys_put (t : Table κ ν) (k : κ) (v : ν) :
    (t.put k v).keys = if k ∈ t.keys then t.keys else t.keys ++ [k] := by
  induction t with
  | nil => rfl
  | cons entry rest ih =>
    rw [put]
    by_cases hkey : entry.1 = k
    · subst hkey
      simp [keys]
    · have hmem : k ∈ keys (entry :: rest) ↔ k ∈ keys rest := by simp [keys, Ne.symm hkey]
      rw [if_neg hkey, keys, List.map_cons]
      change entry.1 :: keys (put rest k v) = _
      rw [ih]
      simp only [hmem]
      split <;> rfl

theorem nodup_keys_put {t : Table κ ν} (hnodup : t.keys.Nodup) (k : κ) (v : ν) : (t.put k v).keys.Nodup := by
  rw [keys_put]
  split
  · exact hnodup
  · next hnew => exact List.nodup_append.mpr ⟨hnodup, List.nodup_singleton k, fun other hmem b hb hsame =>
      hnew (List.mem_singleton.mp hb ▸ hsame ▸ hmem)⟩

theorem get?_of_mem {t : Table κ ν} (hnodup : t.keys.Nodup) {entry : κ × ν} (hmem : entry ∈ t) :
    t.get? entry.1 = some entry.2 := by
  induction t with
  | nil => cases hmem
  | cons first rest ih =>
    rw [keys, List.map_cons, List.nodup_cons] at hnodup
    rw [get?_cons]
    rcases List.mem_cons.mp hmem with rfl | hmem
    · rw [if_pos rfl]
    · have hother : first.1 ≠ entry.1 := by
        intro hsame
        exact hnodup.1 (hsame ▸ List.mem_map_of_mem hmem)
      rw [if_neg hother, ih hnodup.2 hmem]

end Table

/-! ### Holdings -/

/-- How much is kept, and nothing of what. -/
structure Holdings where
  /-- The groups that are enrolled. -/
  groups : Finset Identifier
  /-- The number of credentials of each group. -/
  credentials : Identifier → Nat
  /-- The readers with which a key is shared. -/
  readers : Finset ReaderIdentifier

namespace Holdings

def withReader (holdings : Holdings) (reader : ReaderIdentifier) : Holdings :=
  { holdings with readers := insert reader holdings.readers }

def summary (holdings : Holdings) : String :=
  s!"reader groups: {holdings.groups.card}, endpoints: {holdings.groups.sum holdings.credentials}"
    ++ s!", persistent keys: {holdings.readers.card}"

end Holdings

namespace CredentialStore

/-- Each key stands in its table once, and credentials are kept for the groups that are enrolled. -/
structure WellFormed (s : CredentialStore) : Prop where
  groups : s.groups.keys.Nodup
  credentials : s.credentials.keys = s.groups.keys
  persistentKeys : s.persistentKeys.keys.Nodup

/-! ### Stores are well-formed -/

theorem wellFormed_create (random : RandomSource) : (create random).1.WellFormed :=
  ⟨List.nodup_nil, rfl, List.nodup_nil⟩

variable {s : CredentialStore}

theorem WellFormed.enroll (hformed : s.WellFormed) (c : Credential) (group : ReaderGroup) :
    (s.enroll c group).WellFormed where
  groups := Table.nodup_keys_put hformed.groups _ _
  credentials := by
    rw [CredentialStore.enroll, Table.keys_put, Table.keys_put, hformed.credentials]
  persistentKeys := hformed.persistentKeys

theorem WellFormed.putPersistentKey (hformed : s.WellFormed) (reader : ReaderIdentifier) (key : PersistentKey) :
    (s.putPersistentKey reader key).WellFormed :=
  ⟨hformed.groups, hformed.credentials, Table.nodup_keys_put hformed.persistentKeys _ _⟩

/-! ### What holdings tell -/

def holdings (s : CredentialStore) : Holdings where
  groups := s.groups.keys.toFinset
  credentials group := (s.findCredentials group).length
  readers := s.persistentKeys.keys.toFinset

theorem isSome_findGroup (s : CredentialStore) (group : Identifier) :
    (s.findGroup group).isSome ↔ group ∈ s.holdings.groups := by
  rw [findGroup, Table.isSome_get?_iff, holdings, List.mem_toFinset]

theorem isSome_findPersistentKey (s : CredentialStore) (reader : ReaderIdentifier) :
    (s.findPersistentKey reader).isSome ↔ reader ∈ s.holdings.readers := by
  rw [findPersistentKey, Table.isSome_get?_iff, holdings, List.mem_toFinset]

theorem findCredentials_eq_nil_iff (s : CredentialStore) (group : Identifier) :
    s.findCredentials group = [] ↔ s.holdings.credentials group = 0 := by
  rw [holdings, List.length_eq_zero_iff]

theorem holdings_putPersistentKey (s : CredentialStore) (reader : ReaderIdentifier) (key : PersistentKey) :
    (s.putPersistentKey reader key).holdings = s.holdings.withReader reader := by
  have hreaders : (s.putPersistentKey reader key).persistentKeys.keys.toFinset =
      insert reader s.persistentKeys.keys.toFinset := by
    rw [CredentialStore.putPersistentKey, Table.keys_put]
    split
    · next hknown => rw [Finset.insert_eq_of_mem (List.mem_toFinset.mpr hknown)]
    · rw [List.toFinset_append, List.toFinset_cons, List.toFinset_nil, Finset.union_comm]
      rfl
  rw [holdings, hreaders]
  rfl

theorem foldl_credentials (hformed : s.WellFormed) :
    s.credentials.foldl (fun total entry => total + entry.2.length) 0 =
      s.holdings.groups.sum s.holdings.credentials := by
  have hlengths : (s.credentials.map fun entry => entry.2.length) =
      s.credentials.keys.map s.holdings.credentials := by
    rw [Table.keys, List.map_map]
    refine List.map_congr_left fun entry hmem => ?_
    have hfound := Table.get?_of_mem (hformed.credentials ▸ hformed.groups) hmem
    simp [holdings, findCredentials, hfound]
  have hgroups : (s.groups.keys.map s.holdings.credentials).sum = s.holdings.groups.sum s.holdings.credentials :=
    (List.sum_toFinset _ hformed.groups).symm
  rw [← hgroups, ← hformed.credentials, ← hlengths, List.sum_eq_foldl, List.foldl_map]

theorem summary_eq (hformed : s.WellFormed) : s.summary = s.holdings.summary := by
  have hgroups : s.groups.length = s.holdings.groups.card := by
    rw [holdings, List.toFinset_card_of_nodup hformed.groups, Table.keys, List.length_map]
  have hreaders : s.persistentKeys.length = s.holdings.readers.card := by
    rw [holdings, List.toFinset_card_of_nodup hformed.persistentKeys, Table.keys, List.length_map]
  unfold summary Holdings.summary
  dsimp only
  rw [hgroups, hreaders, foldl_credentials hformed]

end CredentialStore

end TapAccess
