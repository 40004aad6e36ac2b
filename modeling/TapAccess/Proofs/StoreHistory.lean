import TapAccess.Proofs.Holdings

/-!
# What a store tells of its history

A store is filled from outside by changes of three kinds (`Change`), one after the other. `tells_after`: whatever they
were and in whichever order they came, the answers of the store are read off the list of changes alone. The credentials
of a group are those enrolled for it, each once and in the order in which they first came (`Credential.distinct`); its
record and the key of a reader are the last ones given.

`Reflects` is what one change keeps and a whole history has by induction. The other facts follow from it: a group has a
record if and only if it has credentials, and the summary counts what is distinct in the history.
-/

namespace TapAccess

/-! ### Distinct credentials -/

namespace Credential

/-- Of credentials with one public key, only the first. -/
def distinct (credentials : List Credential) : List Credential :=
  credentials.eraseDupsBy fun a b => a.publicKey = b.publicKey

theorem distinct_cons (c : Credential) (credentials : List Credential) :
    distinct (c :: credentials) = c :: distinct (credentials.filter fun other => other.publicKey ≠ c.publicKey) := by
  rw [distinct, List.eraseDupsBy_cons]
  simp [distinct]

theorem distinct_append_singleton (credentials : List Credential) (c : Credential) :
    distinct (credentials ++ [c]) =
      if c.publicKey ∈ credentials.map publicKey then distinct credentials else distinct credentials ++ [c] := by
  -- the induction is on the length, as the first credential takes others out of the rest
  cases credentials with
  | nil => rfl
  | cons first rest =>
    obtain ⟨others, hothers⟩ : ∃ others, others = rest.filter fun other => other.publicKey ≠ first.publicKey := ⟨_, rfl⟩
    have hshorter : others.length ≤ rest.length := hothers ▸ List.length_filter_le _ _
    have hmem : c.publicKey ∈ (first :: rest).map publicKey ↔
        c.publicKey = first.publicKey ∨ c.publicKey ∈ others.map publicKey := by
      rw [List.map_cons, List.mem_cons]
      simp only [hothers, List.mem_map, List.mem_filter]
      grind
    rw [List.cons_append, distinct_cons, distinct_cons, List.filter_append, ← hothers]
    simp only [hmem]
    by_cases hfirst : c.publicKey = first.publicKey
    · have hnone : [c].filter (fun other => other.publicKey ≠ first.publicKey) = [] := by simp [hfirst]
      rw [hnone, List.append_nil, if_pos (.inl hfirst)]
    · have hone : [c].filter (fun other => other.publicKey ≠ first.publicKey) = [c] := by simp [hfirst]
      rw [hone, distinct_append_singleton others c]
      simp only [hfirst, false_or]
      split <;> rfl
termination_by credentials.length

theorem mem_map_distinct {credentials : List Credential} {key : PublicKey} :
    key ∈ (distinct credentials).map publicKey ↔ key ∈ credentials.map publicKey := by
  induction credentials using List.reverseRecOn with
  | nil => rfl
  | append_singleton credentials c ih =>
    rw [distinct_append_singleton]
    split
    · next hknown =>
      rw [ih, List.map_append, List.mem_append]
      constructor
      · exact .inl
      · rintro (hmem | hmem)
        · exact hmem
        · rw [List.map_singleton, List.mem_singleton] at hmem
          exact hmem ▸ hknown
    · rw [List.map_append, List.mem_append, ih, ← List.mem_append, ← List.map_append]

theorem nodup_map_distinct (credentials : List Credential) : ((distinct credentials).map publicKey).Nodup := by
  induction credentials using List.reverseRecOn with
  | nil => exact List.nodup_nil
  | append_singleton credentials c ih =>
    rw [distinct_append_singleton]
    split
    · exact ih
    · next hnew =>
      rw [List.map_append, List.map_singleton, ← List.concat_eq_append, List.nodup_concat]
      exact ⟨fun hmem => hnew (mem_map_distinct.mp hmem), ih⟩

theorem length_distinct (credentials : List Credential) :
    (distinct credentials).length = (credentials.map publicKey).toFinset.card := by
  have hsame : (credentials.map publicKey).toFinset = ((distinct credentials).map publicKey).toFinset := by
    ext key
    rw [List.mem_toFinset, List.mem_toFinset, mem_map_distinct]
  rw [hsame, List.toFinset_card_of_nodup (nodup_map_distinct credentials), List.length_map]

end Credential

namespace CredentialStore

theorem addCredential_distinct (credentials : List Credential) (c : Credential) :
    addCredential (Credential.distinct credentials) c = Credential.distinct (credentials ++ [c]) := by
  have hknown : ((Credential.distinct credentials).any fun known => known.publicKey = c.publicKey) = true ↔
      c.publicKey ∈ credentials.map Credential.publicKey := by
    rw [← Credential.mem_map_distinct]
    simp
  rw [addCredential, Credential.distinct_append_singleton]
  simp only [hknown]

/-! ### Histories -/

/-- What is done to a store from outside. -/
inductive Change where
  /-- A new credential with the key pair is enrolled. -/
  | added (keyPair : KeyPair) (group : ReaderGroup)
  | enrolled (c : Credential) (group : ReaderGroup)
  | shared (reader : ReaderIdentifier) (key : PersistentKey)

namespace Change

def apply (s : CredentialStore) : Change → CredentialStore
  | added keyPair group => s.enroll ⟨keyPair⟩ group
  | enrolled c group => s.enroll c group
  | shared reader key => s.putPersistentKey reader key

/-- What the change enrols. -/
def enrolment? : Change → Option (Credential × ReaderGroup)
  | added keyPair group => some (⟨keyPair⟩, group)
  | enrolled c group => some (c, group)
  | shared _ _ => none

/-- What the change shares. -/
def sharing? : Change → Option (ReaderIdentifier × PersistentKey)
  | added _ _ | enrolled _ _ => none
  | shared reader key => some (reader, key)

end Change

/-- The store after one change after the other. -/
def after (s : CredentialStore) (history : List Change) : CredentialStore := history.foldl Change.apply s

theorem after_append_singleton (s : CredentialStore) (history : List Change) (change : Change) :
    s.after (history ++ [change]) = change.apply (s.after history) := by
  rw [after, List.foldl_append]
  rfl

/-- What was enrolled for a group, oldest first. -/
def enrolmentsFor (history : List Change) (group : Identifier) : List (Credential × ReaderGroup) :=
  (history.filterMap Change.enrolment?).filter fun enrolment => enrolment.2.identifier = group

def credentialsFor (history : List Change) (group : Identifier) : List Credential :=
  (enrolmentsFor history group).map (·.1)

def recordsFor (history : List Change) (group : Identifier) : List ReaderGroup :=
  (enrolmentsFor history group).map (·.2)

/-- The keys that were shared with a reader, oldest first. -/
def keysFor (history : List Change) (reader : ReaderIdentifier) : List PersistentKey :=
  ((history.filterMap Change.sharing?).filter fun sharing => sharing.1 = reader).map (·.2)

/-- The groups for which something was enrolled. -/
def groupsIn (history : List Change) : Finset Identifier :=
  ((history.filterMap Change.enrolment?).map (·.2.identifier)).toFinset

/-- The readers with which something was shared. -/
def readersIn (history : List Change) : Finset ReaderIdentifier :=
  ((history.filterMap Change.sharing?).map (·.1)).toFinset

/-! ### One change -/

/-- The answers of the store are those of the history. -/
structure Reflects (history : List Change) (s : CredentialStore) : Prop where
  credentials : ∀ group, s.findCredentials group = Credential.distinct (credentialsFor history group)
  record : ∀ group, s.findGroup group = (recordsFor history group).getLast?
  key : ∀ reader, s.findPersistentKey reader = (keysFor history reader).getLast?

theorem reflects_create (random : RandomSource) : Reflects [] (create random).1 :=
  ⟨fun _ => rfl, fun _ => rfl, fun _ => rfl⟩

theorem findCredentials_enroll (s : CredentialStore) (c : Credential) (record : ReaderGroup) (group : Identifier) :
    (s.enroll c record).findCredentials group =
      if record.identifier = group then addCredential (s.findCredentials group) c else s.findCredentials group := by
  rw [findCredentials, enroll, Table.get?_put]
  split
  · next hgroup => rw [Option.getD_some, hgroup]
  · rfl

theorem findGroup_enroll (s : CredentialStore) (c : Credential) (record : ReaderGroup) (group : Identifier) :
    (s.enroll c record).findGroup group = if record.identifier = group then some record else s.findGroup group :=
  Table.get?_put _ _ _ _

variable {history : List Change} {s : CredentialStore} {change : Change}

theorem Reflects.enroll (hreflects : Reflects history s) {c : Credential} {record : ReaderGroup}
    (henrols : change.enrolment? = some (c, record)) (hshares : change.sharing? = none) :
    Reflects (history ++ [change]) (s.enroll c record) := by
  have henrolments (group : Identifier) : enrolmentsFor (history ++ [change]) group =
      enrolmentsFor history group ++ if record.identifier = group then [(c, record)] else [] := by
    rw [enrolmentsFor, List.filterMap_append, List.filter_append, ← enrolmentsFor]
    simp [henrols, List.filter_cons]
  refine ⟨fun group => ?_, fun group => ?_, fun reader => ?_⟩
  · rw [findCredentials_enroll, credentialsFor, henrolments, List.map_append, ← credentialsFor, hreflects.credentials]
    split
    · exact addCredential_distinct _ c
    · rw [List.map_nil, List.append_nil]
  · rw [findGroup_enroll, recordsFor, henrolments, List.map_append, ← recordsFor, hreflects.record]
    split
    · exact List.getLast?_concat.symm
    · rw [List.map_nil, List.append_nil]
  · have hkeys : keysFor (history ++ [change]) reader = keysFor history reader := by
      simp [keysFor, hshares]
    rw [hkeys]
    exact hreflects.key reader

theorem Reflects.share (hreflects : Reflects history s) (reader : ReaderIdentifier) (key : PersistentKey) :
    Reflects (history ++ [.shared reader key]) (s.putPersistentKey reader key) := by
  have henrolments (group : Identifier) :
      enrolmentsFor (history ++ [.shared reader key]) group = enrolmentsFor history group := by
    simp [enrolmentsFor, Change.enrolment?]
  refine ⟨fun group => ?_, fun group => ?_, fun other => ?_⟩
  · rw [credentialsFor, henrolments]
    exact hreflects.credentials group
  · rw [recordsFor, henrolments]
    exact hreflects.record group
  · have hkeys : keysFor (history ++ [.shared reader key]) other =
        keysFor history other ++ if reader = other then [key] else [] := by
      rw [keysFor, List.filterMap_append, List.filter_append, List.map_append, ← keysFor]
      by_cases hother : reader = other <;> simp [Change.sharing?, hother]
    rw [findPersistentKey_put, hkeys, hreflects.key]
    split
    · exact List.getLast?_concat.symm
    · rw [List.append_nil]

theorem Reflects.apply (hreflects : Reflects history s) (change : Change) :
    Reflects (history ++ [change]) (change.apply s) := by
  cases change with
  | added keyPair record => exact hreflects.enroll rfl rfl
  | enrolled c record => exact hreflects.enroll rfl rfl
  | shared reader key => exact hreflects.share reader key

theorem WellFormed.apply (hformed : s.WellFormed) (change : Change) : (change.apply s).WellFormed := by
  cases change with
  | added keyPair record => exact hformed.enroll _ _
  | enrolled c record => exact hformed.enroll _ _
  | shared reader key => exact hformed.putPersistentKey _ _

/-- The dummies are the same. -/
structure SameDummies (before after : CredentialStore) : Prop where
  credential : after.dummyCredential = before.dummyCredential
  group : after.dummyGroup = before.dummyGroup
  persistentKey : after.dummyPersistentKey = before.dummyPersistentKey

theorem sameDummies_apply (s : CredentialStore) (change : Change) : SameDummies s (change.apply s) := by
  cases change <;> exact ⟨rfl, rfl, rfl⟩

theorem SameDummies.trans {a b c : CredentialStore} (hab : SameDummies a b) (hbc : SameDummies b c) :
    SameDummies a c :=
  ⟨hbc.credential.trans hab.credential, hbc.group.trans hab.group, hbc.persistentKey.trans hab.persistentKey⟩

/-! ### Any number of changes -/

theorem reflects_after (random : RandomSource) (history : List Change) :
    Reflects history ((create random).1.after history) := by
  induction history using List.reverseRecOn with
  | nil => exact reflects_create random
  | append_singleton history change ih =>
    rw [after_append_singleton]
    exact ih.apply change

theorem wellFormed_after (random : RandomSource) (history : List Change) :
    ((create random).1.after history).WellFormed := by
  induction history using List.reverseRecOn with
  | nil => exact wellFormed_create random
  | append_singleton history change ih =>
    rw [after_append_singleton]
    exact ih.apply change

theorem sameDummies_after (s : CredentialStore) (history : List Change) : SameDummies s (s.after history) := by
  induction history using List.reverseRecOn with
  | nil => exact ⟨rfl, rfl, rfl⟩
  | append_singleton history change ih =>
    rw [after_append_singleton]
    exact ih.trans (sameDummies_apply _ change)

/-! ### What follows from the history -/

theorem enrolmentsFor_ne_nil_iff {group : Identifier} : enrolmentsFor history group ≠ [] ↔ group ∈ groupsIn history := by
  rw [enrolmentsFor, groupsIn, List.mem_toFinset, List.mem_map]
  generalize history.filterMap Change.enrolment? = enrolments
  simp [List.filter_eq_nil_iff]

theorem Reflects.isSome_findGroup_iff (hreflects : Reflects history s) (group : Identifier) :
    (s.findGroup group).isSome ↔ group ∈ groupsIn history := by
  rw [hreflects.record, List.getLast?_isSome, recordsFor, ne_eq, List.map_eq_nil_iff]
  exact enrolmentsFor_ne_nil_iff

theorem Reflects.isSome_findPersistentKey_iff (hreflects : Reflects history s) (reader : ReaderIdentifier) :
    (s.findPersistentKey reader).isSome ↔ reader ∈ readersIn history := by
  rw [hreflects.key, List.getLast?_isSome, keysFor, ne_eq, List.map_eq_nil_iff, List.filter_eq_nil_iff, readersIn,
    List.mem_toFinset, List.mem_map]
  simp

theorem Reflects.findCredentials_ne_nil_iff (hreflects : Reflects history s) (group : Identifier) :
    s.findCredentials group ≠ [] ↔ group ∈ groupsIn history := by
  have hlength : (s.findCredentials group).length = 0 ↔ enrolmentsFor history group = [] := by
    rw [hreflects.credentials, Credential.length_distinct, Finset.card_eq_zero, List.toFinset_eq_empty_iff,
      List.map_eq_nil_iff, credentialsFor, List.map_eq_nil_iff]
  rw [ne_eq, ← List.length_eq_zero_iff, hlength]
  exact enrolmentsFor_ne_nil_iff

/-- What is distinct in a history. -/
def holdingsIn (history : List Change) : Holdings where
  groups := groupsIn history
  credentials group := ((credentialsFor history group).map Credential.publicKey).toFinset.card
  readers := readersIn history

theorem Reflects.holdings_eq (hreflects : Reflects history s) : s.holdings = holdingsIn history := by
  have hgroups : s.holdings.groups = groupsIn history := by
    ext group
    rw [← isSome_findGroup, hreflects.isSome_findGroup_iff]
  have hreaders : s.holdings.readers = readersIn history := by
    ext reader
    rw [← isSome_findPersistentKey, hreflects.isSome_findPersistentKey_iff]
  have hcredentials : s.holdings.credentials = (holdingsIn history).credentials := by
    funext group
    show (s.findCredentials group).length = _
    rw [hreflects.credentials, Credential.length_distinct]
    rfl
  show (⟨s.holdings.groups, s.holdings.credentials, s.holdings.readers⟩ : Holdings) = _
  rw [hgroups, hreaders, hcredentials]
  rfl

/-! ### The whole of it -/

/-- Everything that a store answers, as it follows from the history since it began as `start`. -/
structure Tells (start : CredentialStore) (history : List Change) (s : CredentialStore) : Prop where
  /-- The credentials of a group are those enrolled for it, each at its first place. -/
  credentials : ∀ group, s.findCredentials group = Credential.distinct (credentialsFor history group)
  distinct : ∀ group, ((s.findCredentials group).map Credential.publicKey).Nodup
  complete : ∀ group key, key ∈ (s.findCredentials group).map Credential.publicKey ↔
    ∃ c ∈ credentialsFor history group, c.publicKey = key
  record : ∀ group, s.findGroup group = (recordsFor history group).getLast?
  recorded : ∀ group, (s.findGroup group).isSome ↔ s.findCredentials group ≠ []
  key : ∀ reader, s.findPersistentKey reader = (keysFor history reader).getLast?
  /-- Enrolling leaves the answers for other groups alone, and sharing those for all groups. -/
  otherGroups : ∀ change group, (∀ c record, Change.enrolment? change = some (c, record) → record.identifier ≠ group) →
    (change.apply s).findCredentials group = s.findCredentials group ∧
      (change.apply s).findGroup group = s.findGroup group
  /-- Sharing leaves the answers for other readers alone, and enrolling those for all readers. -/
  otherReaders : ∀ change reader, (∀ key, Change.sharing? change ≠ some (reader, key)) →
    (change.apply s).findPersistentKey reader = s.findPersistentKey reader
  dummies : SameDummies start s
  summary : s.summary = (holdingsIn history).summary

theorem find_apply_of_otherGroup (s : CredentialStore) {change : Change} {group : Identifier}
    (hother : ∀ c record, change.enrolment? = some (c, record) → record.identifier ≠ group) :
    (change.apply s).findCredentials group = s.findCredentials group ∧
      (change.apply s).findGroup group = s.findGroup group := by
  have henroll (c : Credential) (record : ReaderGroup) (hgroup : record.identifier ≠ group) :
      (s.enroll c record).findCredentials group = s.findCredentials group ∧
        (s.enroll c record).findGroup group = s.findGroup group := by
    rw [findCredentials_enroll, findGroup_enroll, if_neg hgroup, if_neg hgroup]
    exact ⟨rfl, rfl⟩
  cases change with
  | added keyPair record => exact henroll _ _ (hother _ _ rfl)
  | enrolled c record => exact henroll _ _ (hother _ _ rfl)
  | shared reader key => exact ⟨rfl, rfl⟩

theorem find_apply_of_otherReader (s : CredentialStore) {change : Change} {reader : ReaderIdentifier}
    (hother : ∀ key, change.sharing? ≠ some (reader, key)) :
    (change.apply s).findPersistentKey reader = s.findPersistentKey reader := by
  cases change with
  | added keyPair record => rfl
  | enrolled c record => rfl
  | shared named key =>
    have hreader : named ≠ reader := fun hsame => hother key (by rw [hsame]; rfl)
    exact findPersistentKey_putPersistentKey_of_ne s key hreader

/-- A store that began empty answers as its history says. -/
theorem tells_after (random : RandomSource) (history : List Change) :
    Tells (create random).1 history ((create random).1.after history) := by
  have hreflects := reflects_after random history
  exact {
    credentials := hreflects.credentials
    distinct := fun group => by
      rw [hreflects.credentials]
      exact Credential.nodup_map_distinct _
    complete := fun group key => by
      rw [hreflects.credentials, Credential.mem_map_distinct, List.mem_map]
    record := hreflects.record
    recorded := fun group => by
      rw [hreflects.isSome_findGroup_iff, hreflects.findCredentials_ne_nil_iff]
    key := hreflects.key
    otherGroups := fun _ _ => find_apply_of_otherGroup _
    otherReaders := fun _ _ => find_apply_of_otherReader _
    dummies := sameDummies_after _ history
    summary := by rw [summary_eq (wellFormed_after random history), hreflects.holdings_eq] }

end CredentialStore

end TapAccess
