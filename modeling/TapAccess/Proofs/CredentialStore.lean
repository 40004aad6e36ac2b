import TapAccess.CredentialStore

/-!
# What a store keeps

A table gives back what was put last under a key (`Table.get?_put`). A store never forgets a credential:
enrolling another and keeping a shared key both leave the dummy and everything enrolled in place
(`CredentialStore.Retains`), so a credential that once could answer a group of readers always can.
-/

namespace TapAccess

namespace Table

variable {κ ν : Type} [DecidableEq κ]

theorem get?_cons (entry : κ × ν) (rest : Table κ ν) (k : κ) :
    get? (entry :: rest) k = if entry.1 = k then some entry.2 else get? rest k := by
  unfold get?
  by_cases hkey : entry.1 = k
  · simp [hkey]
  · simp [hkey]

theorem get?_put (t : Table κ ν) (k : κ) (v : ν) (other : κ) :
    (t.put k v).get? other = if k = other then some v else t.get? other := by
  induction t with
  | nil => rw [put, get?_cons]
  | cons entry rest ih =>
    rw [put]
    split
    · next hkey =>
      rw [get?_cons, get?_cons, hkey]
      split <;> rfl
    · next hkey =>
      rw [get?_cons, get?_cons, ih]
      by_cases hother : entry.1 = other
      · rw [if_pos hother, if_pos hother, if_neg fun h => hkey (hother.trans h.symm)]
      · rw [if_neg hother, if_neg hother]

end Table

namespace CredentialStore

/-! ### Shared keys -/

theorem findPersistentKey_put (s : CredentialStore) (reader other : ReaderIdentifier) (key : PersistentKey) :
    (s.putPersistentKey reader key).findPersistentKey other =
      if reader = other then some key else s.findPersistentKey other :=
  Table.get?_put _ _ _ _

theorem findPersistentKey_putPersistentKey (s : CredentialStore) (reader : ReaderIdentifier) (key : PersistentKey) :
    (s.putPersistentKey reader key).findPersistentKey reader = some key :=
  (findPersistentKey_put s reader reader key).trans (if_pos rfl)

theorem findPersistentKey_putPersistentKey_of_ne (s : CredentialStore) {reader other : ReaderIdentifier}
    (key : PersistentKey) (hother : other ≠ reader) :
    (s.putPersistentKey other key).findPersistentKey reader = s.findPersistentKey reader :=
  (findPersistentKey_put s other reader key).trans (if_neg hother)

/-! ### Credentials -/

/-- Nothing that one could answer with is lost from `before` to `after`. -/
structure Retains (before after : CredentialStore) : Prop where
  dummy : after.dummyCredential = before.dummyCredential
  enrolled : ∀ group c, c ∈ before.findCredentials group → c ∈ after.findCredentials group

/-- The credential is one that a group of readers may be answered with. -/
def AnswersFor (s : CredentialStore) (group : Identifier) (c : Credential) : Prop :=
  c = s.dummyCredential ∨ c ∈ s.findCredentials group

theorem Retains.answersFor {before after : CredentialStore} (hretains : Retains before after) {group : Identifier}
    {c : Credential} (hbefore : before.AnswersFor group c) : after.AnswersFor group c := by
  rcases hbefore with rfl | hmem
  · exact Or.inl hretains.dummy.symm
  · exact Or.inr (hretains.enrolled _ _ hmem)

theorem mem_addCredential {credentials : List Credential} {c known : Credential} (hmem : known ∈ credentials) :
    known ∈ addCredential credentials c := by
  unfold addCredential
  split
  · exact hmem
  · exact List.mem_append_left _ hmem

theorem retains_enroll (s : CredentialStore) (c : Credential) (group : ReaderGroup) :
    Retains s (s.enroll c group) where
  dummy := rfl
  enrolled identifier known hmem := by
    rw [findCredentials, enroll, Table.get?_put]
    split
    · next hgroup =>
      subst hgroup
      exact mem_addCredential hmem
    · exact hmem

theorem retains_putPersistentKey (s : CredentialStore) (reader : ReaderIdentifier) (key : PersistentKey) :
    Retains s (s.putPersistentKey reader key) := ⟨rfl, fun _ _ => id⟩

theorem retains_refl (s : CredentialStore) : Retains s s := ⟨rfl, fun _ _ => id⟩

end CredentialStore

end TapAccess
