import TapAccess.Proofs.Crypto.KeyPairs
import TapAccess.Proofs.Endpoint.Atomicity
import TapAccess.Proofs.Endpoint.Sessions

/-!
# What handshakes leave in the store

Of all that an endpoint keeps, a run changes the shared keys alone, and only where AUTH1 is accepted: there the
entry of the session's reader becomes the key that this session derives (`Moment.Shares`). So after a run the store
has for every reader the key of the last session with it in which AUTH1 was accepted, and what it had at the start
when there was none (`shared_keys_run`). Readers of one group differ in their sub-group, and each has its own entry.

An endpoint that comes to no signature would leave a key behind without an answer; `Signs` is what excludes that.
-/

namespace TapAccess

namespace Endpoint

/-! ### What stays -/

/-- Everything but the shared keys and the transaction is the same. -/
structure SameEnrolment (before after : Endpoint) : Prop where
  versions : after.versions = before.versions
  groups : after.store.groups = before.store.groups
  credentials : after.store.credentials = before.store.credentials
  dummyCredential : after.store.dummyCredential = before.store.dummyCredential
  dummyGroup : after.store.dummyGroup = before.store.dummyGroup
  dummyPersistentKey : after.store.dummyPersistentKey = before.store.dummyPersistentKey

theorem sameEnrolment_refl (e : Endpoint) : SameEnrolment e e := ⟨rfl, rfl, rfl, rfl, rfl, rfl⟩

theorem SameEnrolment.trans {e₁ e₂ e₃ : Endpoint} (h₁ : SameEnrolment e₁ e₂) (h₂ : SameEnrolment e₂ e₃) :
    SameEnrolment e₁ e₃ where
  versions := h₂.versions.trans h₁.versions
  groups := h₂.groups.trans h₁.groups
  credentials := h₂.credentials.trans h₁.credentials
  dummyCredential := h₂.dummyCredential.trans h₁.dummyCredential
  dummyGroup := h₂.dummyGroup.trans h₁.dummyGroup
  dummyPersistentKey := h₂.dummyPersistentKey.trans h₁.dummyPersistentKey

theorem Turn.sameEnrolment {m : Moment} (hturn : Turn m) : SameEnrolment m.before.own m.after.own := by
  cases hturn with
  | refused hquiet hafter =>
    rw [hafter]
    exact sameEnrolment_refl _
  | deselected _ hafter | unsigned _ _ hafter | selected _ _ _ hafter | noted _ _ _ hafter
  | opened _ _ _ _ _ hafter | completed _ _ _ _ _ _ _ _ hafter =>
    rw [hafter]
    exact ⟨rfl, rfl, rfl, rfl, rfl, rfl⟩

theorem sameEnrolment_run (h : Hosted Endpoint) (stimuli : List Stimulus) :
    SameEnrolment h.own (run h stimuli).own := by
  induction stimuli generalizing h with
  | nil => exact sameEnrolment_refl _
  | cons s stimuli ih => exact (turn_of h s).sameEnrolment.trans (ih _)

/-! ### One moment -/

/-- AUTH1 is accepted in a session with the reader, and the key is the one that the session derives. -/
def Moment.Shares (m : Moment) (reader : ReaderIdentifier) (key : PersistentKey) : Prop :=
  ∃ c session, m.Accepts (.auth1 c) ∧ openSession? m.before.own.transaction = some session ∧
    session.readerIdentifier = reader ∧
    (session.derivation m.before.own.versions.encode).persistentKey session.secret = key

/-- AUTH1 is accepted in a session with the reader. -/
def Moment.SharesWith (m : Moment) (reader : ReaderIdentifier) : Prop := ∃ key, m.Shares reader key

variable {h : Hosted Endpoint} {reader : ReaderIdentifier} {key : PersistentKey}

theorem Moment.Shares.reader_unique {m : Moment} {reader' : ReaderIdentifier} {key' : PersistentKey}
    (hshares : m.Shares reader key) (hshares' : m.Shares reader' key') : reader = reader' := by
  obtain ⟨c, session, -, hopen, rfl, -⟩ := hshares
  obtain ⟨c', session', -, hopen', rfl, -⟩ := hshares'
  rw [hopen, Option.some.injEq] at hopen'
  rw [hopen']

theorem Moment.SharesWith.interrupts {m : Moment} (hshares : m.SharesWith reader) : m.Interrupts := by
  obtain ⟨_, _, _, haccepts, -⟩ := hshares
  exact haccepts.interrupts

theorem not_sharesWith_of_accepts {m : Moment} {request : Request} (haccepts : m.Accepts request)
    (hother : ∀ c, request ≠ .auth1 c) : ¬ m.SharesWith reader := by
  rintro ⟨_, c, _, hauth1, -⟩
  exact hother c (haccepts.unique hauth1)

theorem after_of_quiet {s : Stimulus} (hsigns : h.own.Signs) (hquiet : ¬ (Moment.of h s).Interrupts) :
    (Moment.of h s).after.own = h.own := by
  cases s with
  | deselect => exact absurd (Or.inl rfl) hquiet
  | frame bytes =>
    rcases reply_cases hsigns h.random bytes with hsuccess | ⟨code, hreply⟩
    · exact absurd (Or.inr ⟨_, brings_frame_iff.mpr rfl, hsuccess⟩) hquiet
    · obtain ⟨log, hreact⟩ := react_frame h bytes
      rw [Moment.of, hreact, hreply]

theorem store_after (hsigns : h.own.Signs) (s : Stimulus) :
    (∃ reader key, (Moment.of h s).Shares reader key ∧
      (Moment.of h s).after.own.store = h.own.store.putPersistentKey reader key) ∨
    ((∀ reader, ¬ (Moment.of h s).SharesWith reader) ∧ (Moment.of h s).after.own.store = h.own.store) := by
  by_cases hinterrupts : (Moment.of h s).Interrupts
  · cases turn_of h s with
    | refused hquiet _ | unsigned _ hquiet _ => exact absurd hinterrupts hquiet
    | deselected hstimulus hafter =>
      refine Or.inr ⟨?_, by rw [hafter]; rfl⟩
      rintro reader ⟨_, _, _, haccepts, -⟩
      exact haccepts.stimulus_ne hstimulus
    | selected c haccepts _ hafter | noted c haccepts _ hafter | opened c haccepts _ _ _ hafter =>
      refine Or.inr ⟨?_, by rw [hafter]; rfl⟩
      exact fun reader => not_sharesWith_of_accepts haccepts nofun
    | completed c session channel answered haccepts hopen _ _ hafter =>
      exact Or.inl ⟨_, _, ⟨c, session, haccepts, hopen, rfl, rfl⟩, congrArg Endpoint.store hafter⟩
  · refine Or.inr ⟨?_, congrArg Endpoint.store (after_of_quiet hsigns hinterrupts)⟩
    exact fun reader hshares => hinterrupts hshares.interrupts

/-! ### A run -/

/-- What is found for the reader is the key of the last session with it, or what was found at first when there was
no such session. -/
def LastShared (past : List Moment) (reader : ReaderIdentifier) (initial found : Option PersistentKey) : Prop :=
  (∃ key, found = some key ∧ Since (·.Shares reader key) (·.SharesWith reader) past) ∨
    found = initial ∧ ∀ m ∈ past, ¬ m.SharesWith reader

variable {past : List Moment} {initial found : Option PersistentKey}

theorem LastShared.of_shares {m : Moment} (hshares : m.Shares reader key) :
    LastShared (past ++ [m]) reader initial (some key) :=
  Or.inl ⟨key, rfl, since_append_singleton.mpr (Or.inl hshares)⟩

theorem LastShared.append {m : Moment} (hlast : LastShared past reader initial found)
    (hquiet : ¬ m.SharesWith reader) : LastShared (past ++ [m]) reader initial found := by
  rcases hlast with ⟨key, hfound, hsince⟩ | ⟨hfound, hnone⟩
  · exact Or.inl ⟨key, hfound, hsince.append (List.forall_mem_singleton.mpr hquiet)⟩
  · refine Or.inr ⟨hfound, fun m' hmem => ?_⟩
    rcases List.mem_append.mp hmem with hmem | hmem
    · exact hnone m' hmem
    · rw [List.mem_singleton.mp hmem]
      exact hquiet

theorem LastShared.react (hlast : LastShared past reader initial (h.own.store.findPersistentKey reader))
    (hsigns : h.own.Signs) (s : Stimulus) :
    LastShared (past ++ [.of h s]) reader initial ((Endpoint.react h s).2.own.store.findPersistentKey reader) := by
  -- the keys of other readers do not matter: their sessions write other entries
  change LastShared _ _ _ ((Moment.of h s).after.own.store.findPersistentKey reader)
  rcases store_after hsigns s with ⟨other, key, hshares, hstore⟩ | ⟨hnone, hstore⟩
  · rw [hstore]
    by_cases hother : other = reader
    · subst hother
      rw [CredentialStore.findPersistentKey_putPersistentKey]
      exact .of_shares hshares
    · rw [CredentialStore.findPersistentKey_putPersistentKey_of_ne _ _ hother]
      refine hlast.append ?_
      rintro ⟨_, hsame⟩
      exact hother (hshares.reader_unique hsame)
  · rw [hstore]
    exact hlast.append (hnone reader)

theorem lastShared_run (stimuli : List Stimulus) (hsigns : ∀ m ∈ history h stimuli, m.before.own.Signs) :
    LastShared (history h stimuli) reader (h.own.store.findPersistentKey reader)
      ((run h stimuli).own.store.findPersistentKey reader) := by
  have hstart : LastShared [] reader (h.own.store.findPersistentKey reader) (h.own.store.findPersistentKey reader) :=
    Or.inr ⟨rfl, List.forall_mem_nil _⟩
  refine run_induction (P := fun past h' => (∀ m ∈ past, m.before.own.Signs) →
    LastShared past reader (h.own.store.findPersistentKey reader) (h'.own.store.findPersistentKey reader))
    (fun past h' s hpast hall => ?_) stimuli (fun _ => hstart) hsigns
  rw [List.forall_mem_append, List.forall_mem_singleton] at hall
  exact (hpast hall.1).react hall.2 s

/-- A run changes no more than the shared keys. Each of its moments sets the entry of the reader whose session it
completes, or none at all, and in the end every reader's entry is that of the last such session. -/
theorem shared_keys_run (h : Hosted Endpoint) (stimuli : List Stimulus)
    (hsigns : ∀ m ∈ history h stimuli, m.before.own.Signs) :
    SameEnrolment h.own (run h stimuli).own ∧
    (∀ m ∈ history h stimuli, m.after.own.store ≠ m.before.own.store →
      ∃ reader key, m.Shares reader key ∧ m.after.own.store = m.before.own.store.putPersistentKey reader key) ∧
    ∀ reader, LastShared (history h stimuli) reader (h.own.store.findPersistentKey reader)
      ((run h stimuli).own.store.findPersistentKey reader) := by
  refine ⟨sameEnrolment_run h stimuli, fun m hmem hchanged => ?_, fun reader => lastShared_run stimuli hsigns⟩
  have hsigned := hsigns m hmem
  obtain ⟨h', s, -, rfl⟩ := exists_of_mem_history hmem
  rcases store_after hsigned s with hkept | ⟨-, hsame⟩
  · exact hkept
  · exact absurd hsame hchanged

/-! ### A reader's first session -/

def enrolledReader : KeyPair := .ofPrivateKey ⟨9, by decide, by decide +kernel⟩

def enrolledGroup : ReaderGroup := ⟨waitingSession.readerIdentifier.group, enrolledReader.publicKey⟩

/-- An endpoint that knows the group and waits for AUTH1. -/
def enrolledWaiting : Hosted Endpoint where
  own := ⟨waiting.own.store.enroll waitingSession.credential enrolledGroup, waiting.own.transaction, .standard⟩
  random := waiting.random
  log := []

theorem groupKey_enroll (store : CredentialStore) (c : Credential) (group : ReaderGroup) :
    (store.enroll c group).groupKey group.identifier = group.publicKey := by
  have hfind : (store.enroll c group).findGroup group.identifier = some group :=
    (Table.get?_put _ _ _ _).trans (if_pos rfl)
  rw [CredentialStore.groupKey, hfind, Option.getD_some]

theorem signs_enrolledWaiting : enrolledWaiting.own.Signs := signs_waiting

theorem groupKey_enrolledWaiting : enrolledWaiting.own.store.groupKey waitingSession.readerIdentifier.group =
    enrolledReader.publicKey := by
  have hidentifier : waitingSession.readerIdentifier.group = enrolledGroup.identifier := by rw [enrolledGroup]
  have hkey : enrolledReader.publicKey = enrolledGroup.publicKey := by rw [enrolledGroup]
  rw [hidentifier, hkey]
  exact groupKey_enroll waiting.own.store waitingSession.credential enrolledGroup

theorem exists_firstAuth1 : ∃ bytes c, (Moment.of enrolledWaiting (.frame bytes)).Accepts (.auth1 c) := by
  obtain ⟨signature, hmade⟩ : ∃ signature, Signature.make enrolledReader.privateKey
      (waitingSession.handshake.authenticationData .reader) = .ok signature :=
    Except.exists_eq_ok_of_toBool (by decide +kernel)
  obtain ⟨endpointSignature, hsigned⟩ := signs_enrolledWaiting waitingSession (Or.inr rfl)
  obtain ⟨channel, sealed, hcountersigned, -⟩ := exists_countersigned
    ((waitingSession.derivation enrolledWaiting.own.versions.encode).channelKeys waitingSession.secret) hsigned
  have hverify : Signature.verify (enrolledWaiting.own.store.groupKey waitingSession.readerIdentifier.group)
      (waitingSession.handshake.authenticationData .reader)
      (Auth1Command.ofSignature signature).readerSignature.toList = true := by
    rw [groupKey_enrolledWaiting]
    exact KeyPair.verify_make hmade
  have hsettle : enrolledWaiting.own.settle enrolledWaiting.random (.auth1 (.ofSignature signature)) = _ :=
    (settleAuth1_of_open (Or.inr rfl)).trans (settleSession_of_verify hverify hcountersigned)
  exact ⟨_, _, (react_of_settle (Auth1Command.decode_ofSignature signature) hsettle).1⟩

/-- Once AUTH1 is accepted, the key of the session at hand is the reader's. -/
theorem shared_keys_run_first : ∃ bytes,
    (∀ m ∈ history enrolledWaiting [.frame bytes], m.before.own.Signs) ∧
    (run enrolledWaiting [.frame bytes]).own.store.findPersistentKey waitingSession.readerIdentifier =
      some ((waitingSession.derivation Versions.standard.encode).persistentKey waitingSession.secret) := by
  obtain ⟨bytes, c, haccepts⟩ := exists_firstAuth1
  have hhistory : history enrolledWaiting [.frame bytes] = [.of enrolledWaiting (.frame bytes)] := rfl
  have hsigns : ∀ m ∈ history enrolledWaiting [.frame bytes], m.before.own.Signs := by
    rw [hhistory, List.forall_mem_singleton]
    exact signs_enrolledWaiting
  have hshares : (Moment.of enrolledWaiting (.frame bytes)).Shares waitingSession.readerIdentifier
      ((waitingSession.derivation Versions.standard.encode).persistentKey waitingSession.secret) :=
    ⟨c, waitingSession, haccepts, rfl, rfl, rfl⟩
  refine ⟨bytes, hsigns, ?_⟩
  rcases (shared_keys_run enrolledWaiting [.frame bytes] hsigns).2.2 waitingSession.readerIdentifier with
    ⟨key, hfound, hsince⟩ | ⟨-, hnone⟩
  · rw [hhistory, ← List.nil_append [Moment.of _ _], since_append_singleton] at hsince
    rcases hsince with ⟨_, session, -, hopen, -, rfl⟩ | ⟨-, hpast⟩
    · cases hopen
      exact hfound
    · exact absurd hpast not_since_nil
  · exact absurd ⟨_, hshares⟩ (hnone _ (by rw [hhistory]; exact List.mem_singleton_self _))

end Endpoint

end TapAccess
