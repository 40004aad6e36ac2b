import TapAccess.Proofs.CredentialStore
import TapAccess.Proofs.Endpoint.Turns

/-!
# What an endpoint remembers

While frames reach an endpoint, its owner may enrol credentials and keep shared keys (`Occurrence`). In whatever
order that happens, the session that the endpoint remembers is sound (`session_invariant`): its channel and its
flag go with the phase, its version is supported, its credential answers for the reader's group, and it recalls
the AUTH0 that was accepted last and the key in the answer to it. So an answer to AUTH1 is always sealed under
number one, where a reader's new channel begins.

`Consistent.carry` is the frame of this: what leaves the transaction alone and forgets no credential keeps it.
-/

namespace TapAccess

theorem RandomSource.mem_of_choose? {α : Type} {values : List α} {r : RandomSource} {value : α}
    (hchosen : (r.choose? values).1 = some value) : value ∈ values := by
  unfold choose? at hchosen
  split at hchosen
  · cases hchosen
  · cases hchosen
    exact List.mem_singleton_self _
  · obtain ⟨i, -, hindex⟩ := Option.bind_eq_some_iff.mp hchosen
    exact List.mem_of_getElem? hindex

namespace Endpoint

theorem answersFor_choice (e : Endpoint) (random : RandomSource) (group : Identifier) :
    e.store.AnswersFor group (e.choice random group).1 := by
  rw [choice]
  cases hchosen : (random.choose? (e.store.findCredentials group)).1 with
  | none => exact Or.inl rfl
  | some credential => exact Or.inr (RandomSource.mem_of_choose? hchosen)

/-! ### Occurrences -/

/-- What happens to an endpoint: something reaches it, or what it keeps is changed from outside. -/
inductive Occurrence where
  | reached (s : Stimulus)
  | enrolled (c : Credential) (group : ReaderGroup)
  | shared (reader : ReaderIdentifier) (key : PersistentKey)

namespace Occurrence

def after (h : Hosted Endpoint) : Occurrence → Hosted Endpoint
  | reached s => (react h s).2
  | enrolled c group => { h with own := { h.own with store := h.own.store.enroll c group } }
  | shared reader key =>
    ((onStore (CredentialStore.storePersistentKey reader key) : Action Empty Endpoint Unit).outcome h).2

def moments (h : Hosted Endpoint) : Occurrence → List Moment
  | reached s => [.of h s]
  | _ => []

end Occurrence

/-- The host after one occurrence after the other. -/
def live : Hosted Endpoint → List Occurrence → Hosted Endpoint
  | h, [] => h
  | h, o :: later => live (o.after h) later

/-- What the endpoint has done with everything that reached it. -/
def lived : Hosted Endpoint → List Occurrence → List Moment
  | _, [] => []
  | h, o :: later => o.moments h ++ lived (o.after h) later

theorem live_induction {P : List Moment → Hosted Endpoint → Prop}
    (hstep : ∀ past h o, P past h → P (past ++ Occurrence.moments h o) (o.after h)) (occurrences : List Occurrence)
    {past : List Moment} {h : Hosted Endpoint} (hstart : P past h) :
    P (past ++ lived h occurrences) (live h occurrences) := by
  induction occurrences generalizing past h with
  | nil =>
    rw [lived, List.append_nil]
    exact hstart
  | cons o later ih =>
    rw [lived, ← List.append_assoc]
    exact ih (hstep past h o hstart)

/-! ### Sound sessions -/

/-- The session has the names, the reader's key and the flag of the command. -/
structure Recalls (session : Session) (c : Auth0Command) : Prop where
  transactionIdentifier : session.transactionIdentifier = c.transactionIdentifier
  readerIdentifier : session.readerIdentifier = c.readerIdentifier
  readerEphemeral : session.readerEphemeral = c.readerEphemeral
  flag : session.flag = c.flag

def Moment.AcceptsAuth0 (m : Moment) : Prop := ∃ c, m.Accepts (.auth0 c)

/-- AUTH0 is accepted, and the session recalls it and the key in the answer. -/
def Moment.Begets (m : Moment) (session : Session) : Prop :=
  ∃ c, m.Accepts (.auth0 c) ∧ Recalls session c ∧ m.Offers session.endpointEphemeral.publicKey

/-- The endpoint could have opened the session, and the AUTH0 that was accepted last did. -/
structure Sound (past : List Moment) (e : Endpoint) (session : Session) : Prop where
  version : e.versions.Supports session.version
  credential : e.store.AnswersFor session.readerIdentifier.group session.credential
  origin : Since (·.Begets session) Moment.AcceptsAuth0 past

/-- The flag and the channel of the session go with the phase. -/
def Fits : Transaction → Prop
  | .initial | .selectDone => True
  | .auth0StandardDone session => session.flag.toList[0]? = some 0 ∧ session.channel = ⟨1, none⟩
  | .auth0FastDone session => session.flag.toList[0]? = some 1 ∧
    ∃ keys, session.channel = ⟨1, some keys⟩ ∧ keys.stepUp = none
  | .auth1Done session => ∃ keys, session.channel = ⟨2, some keys⟩ ∧ keys.stepUp.isSome

/-- The endpoint's transaction is one that its past accounts for. -/
structure Consistent (past : List Moment) (e : Endpoint) : Prop where
  fits : Fits e.transaction
  sound : ∀ session, e.transaction.session? = some session → Sound past e session

variable {past more : List Moment} {e e' : Endpoint} {h : Hosted Endpoint}

theorem Sound.carry {session : Session} (hsound : Sound past e session) (hversions : e'.versions = e.versions)
    (hretains : e.store.Retains e'.store) (hquiet : ∀ m ∈ more, ¬ m.AcceptsAuth0) :
    Sound (past ++ more) e' session where
  version := by
    rw [hversions]
    exact hsound.version
  credential := hretains.answersFor hsound.credential
  origin := hsound.origin.append hquiet

theorem Sound.withChannel {session : Session} (hsound : Sound past e session) (channel : Channel) :
    Sound past e { session with channel } := by
  obtain ⟨hversion, hcredential, earlier, m, later, hpast, ⟨c, haccepts, hrecalls, hoffers⟩, hlater⟩ := hsound
  have hsame : Recalls { session with channel } c :=
    ⟨hrecalls.transactionIdentifier, hrecalls.readerIdentifier, hrecalls.readerEphemeral, hrecalls.flag⟩
  exact ⟨hversion, hcredential, earlier, m, later, hpast, ⟨c, haccepts, hsame, hoffers⟩, hlater⟩

theorem Consistent.carry (hconsistent : Consistent past e) (htransaction : e'.transaction = e.transaction)
    (hversions : e'.versions = e.versions) (hretains : e.store.Retains e'.store)
    (hquiet : ∀ m ∈ more, ¬ m.AcceptsAuth0) : Consistent (past ++ more) e' where
  fits := by
    rw [htransaction]
    exact hconsistent.fits
  sound session hsession := by
    rw [htransaction] at hsession
    exact (hconsistent.sound session hsession).carry hversions hretains hquiet

theorem consistent_of_none (hnone : e.transaction.session? = none) : Consistent past e where
  fits := by
    cases htransaction : e.transaction with
    | initial | selectDone => trivial
    | auth0FastDone session | auth0StandardDone session | auth1Done session =>
      rw [htransaction] at hnone
      cases hnone
  sound session hsession := by
    rw [hnone] at hsession
    cases hsession

/-! ### One occurrence -/

theorem not_acceptsAuth0_of_quiet {m : Moment} (hquiet : ¬ m.Interrupts) : ∀ m' ∈ [m], ¬ m'.AcceptsAuth0 := by
  rw [List.forall_mem_singleton]
  rintro ⟨c, haccepts⟩
  exact hquiet haccepts.interrupts

theorem fits_openedTransaction (e : Endpoint) (random : RandomSource) (c : Auth0Command) :
    Fits (e.openedTransaction c (e.freshSession random c)) := by
  have hflag : c.flag.toList[0]? = some (if c.fast then 0x01 else 0x00) := rfl
  rw [openedTransaction]
  cases hfast : c.fast with
  | true =>
    rw [hfast] at hflag
    exact ⟨hflag, _, rfl, rfl⟩
  | false =>
    rw [hfast] at hflag
    exact ⟨hflag, rfl⟩

theorem consistent_of_auth0 {m : Moment} {random : RandomSource} {c : Auth0Command}
    (haccepts : m.Accepts (.auth0 c)) (hversion : e.versions.Supports c.version)
    (hoffers : m.Offers (e.freshSession random c).endpointEphemeral.publicKey) :
    Consistent (past ++ [m]) { e with transaction := e.openedTransaction c (e.freshSession random c) } where
  fits := fits_openedTransaction e random c
  sound session hsession := by
    obtain ⟨channel, rfl⟩ := session?_openedTransaction hsession
    refine ⟨hversion, answersFor_choice e random.keyPair.2 c.readerIdentifier.group, ?_⟩
    exact since_append_singleton.mpr (Or.inl ⟨c, haccepts, ⟨rfl, rfl, rfl, rfl⟩, hoffers⟩)

theorem Fits.counter {t : Transaction} {session : Session} (hfits : Fits t)
    (hopen : openSession? t = some session) : session.channel.counter = 1 := by
  rcases openSession?_eq_some_iff.mp hopen with rfl | rfl
  · obtain ⟨-, keys, hchannel, -⟩ := hfits
    rw [hchannel]
  · obtain ⟨-, hchannel⟩ := hfits
    rw [hchannel]

theorem consistent_of_auth1 {m : Moment} {c : Auth1Command} {session : Session} {keys : ChannelKeys}
    (hconsistent : Consistent past e) (hopen : openSession? e.transaction = some session)
    (haccepts : m.Accepts (.auth1 c)) (hstepUp : keys.stepUp.isSome) :
    Consistent (past ++ [m]) { e.withSharedKey session with
      transaction := .auth1Done { session with channel := (session.channel.withKeys keys).advanced } } where
  fits := by
    refine ⟨keys, ?_, hstepUp⟩
    rw [Channel.advanced, Channel.withKeys, hconsistent.fits.counter hopen]
    rfl
  sound session' hsession := by
    cases hsession
    -- the AUTH0 that was accepted last stays the same: this moment is no AUTH0
    have hother : ∀ m' ∈ [m], ¬ m'.AcceptsAuth0 := by
      rw [List.forall_mem_singleton]
      rintro ⟨c₀, hauth0⟩
      cases haccepts.unique hauth0
    have hsound := (hconsistent.sound session (session?_of_open hopen)).withChannel
      (session.channel.withKeys keys).advanced
    exact hsound.carry rfl (CredentialStore.retains_putPersistentKey _ _ _) hother

theorem Consistent.react (hconsistent : Consistent past h.own) (s : Stimulus) :
    Consistent (past ++ [.of h s]) (Endpoint.react h s).2.own := by
  change Consistent _ (Moment.of h s).after.own
  cases turn_of h s with
  | deselected hstimulus hafter =>
    rw [hafter]
    exact consistent_of_none rfl
  | refused hquiet hafter =>
    rw [hafter]
    exact hconsistent.carry rfl rfl (CredentialStore.retains_refl _) (not_acceptsAuth0_of_quiet hquiet)
  | unsigned session hquiet hafter =>
    -- the shared key is all that has changed, and no credential hangs on it
    rw [hafter]
    exact hconsistent.carry rfl rfl (CredentialStore.retains_putPersistentKey _ _ _)
      (not_acceptsAuth0_of_quiet hquiet)
  | selected c haccepts hlegal hafter =>
    rw [hafter]
    exact consistent_of_none rfl
  | noted c haccepts hlegal hafter =>
    rw [hafter]
    exact consistent_of_none rfl
  | opened c haccepts hready hversion hoffers hafter =>
    rw [hafter]
    exact consistent_of_auth0 haccepts hversion hoffers
  | completed c session channel answered haccepts hopen hsigned hbrings hafter =>
    obtain ⟨_, _, -, -, rfl, -⟩ := countersigned_eq_ok_iff.mp hsigned
    rw [hafter]
    exact consistent_of_auth1 hconsistent hopen haccepts rfl

theorem Consistent.occur (hconsistent : Consistent past h.own) (o : Occurrence) :
    Consistent (past ++ o.moments h) (o.after h).own := by
  cases o with
  | reached s => exact hconsistent.react s
  | enrolled c group =>
    exact hconsistent.carry rfl rfl (CredentialStore.retains_enroll _ _ _) (List.forall_mem_nil _)
  | shared reader key =>
    exact hconsistent.carry rfl rfl (CredentialStore.retains_putPersistentKey _ _ _) (List.forall_mem_nil _)

theorem consistent_live (hnew : h.own.transaction = .initial) (occurrences : List Occurrence) :
    Consistent (lived h occurrences) (live h occurrences).own := by
  have hstart : Consistent [] h.own := consistent_of_none (by rw [hnew]; rfl)
  exact live_induction (P := fun past h => Consistent past h.own) (fun _ _ o hpast => hpast.occur o) occurrences hstart

/-! ### Answers to AUTH1 -/

/-- The answer is sealed under number one of the keys of the session at hand, and a new channel with these keys
opens it. -/
def SealedFirst (h : Hosted Endpoint) (s : Stimulus) : Prop :=
  ∃ session plaintext answered, openSession? h.own.transaction = some session ∧
    (Moment.of h s).Brings (Auth1Response.toResponse answered) ∧
    let keys := (session.derivation h.own.versions.encode).channelKeys session.secret
    Auth1Response.encrypt ⟨1, some keys⟩ plaintext = .ok (⟨2, some keys⟩, answered) ∧
    Channel.decrypt (.new (some keys)) answered.ciphertext = .ok (⟨2, some keys⟩, plaintext.encode)

theorem encrypt_first {keys : ChannelKeys} {plaintext : Auth1Plaintext} {sealed : Bytes}
    (hseal : Gcm.seal? keys.exchangeDevice (Channel.nonce 1) plaintext.encode = some sealed) :
    Auth1Response.encrypt ⟨1, some keys⟩ plaintext = .ok (⟨2, some keys⟩, ⟨.known .ok, sealed⟩) ∧
      Channel.decrypt (.new (some keys)) sealed = .ok (⟨2, some keys⟩, plaintext.encode) := by
  have hencrypt : Channel.encrypt ⟨1, some keys⟩ plaintext.encode = .ok (⟨2, some keys⟩, sealed) :=
    Channel.encrypt_eq_ok_iff.mpr ⟨keys, rfl, hseal, rfl⟩
  exact ⟨Auth1Response.encrypt_eq_ok_iff.mpr ⟨sealed, hencrypt, rfl⟩, Channel.decrypt_of_encrypt hencrypt⟩

theorem sealedFirst_of_auth1 {s : Stimulus} {c : Auth1Command} (hfits : Fits h.own.transaction)
    (haccepts : (Moment.of h s).Accepts (.auth1 c)) : SealedFirst h s := by
  obtain ⟨bytes, response, rfl, hdecode, hok⟩ := accepts_iff.mp haccepts
  obtain ⟨session, _, _, hopen, hsigned, hbrings, -⟩ := completed_of_ok hdecode hok
  obtain ⟨signature, sealed, -, hseal, rfl, rfl⟩ := countersigned_eq_ok_iff.mp hsigned
  rw [hfits.counter hopen] at hseal
  exact ⟨session, _, _, hopen, hbrings, encrypt_first hseal⟩

/-- Whatever has happened to a new endpoint, its transaction is consistent with that, and it seals every answer to
AUTH1 under number one. -/
theorem session_invariant (store : CredentialStore) (versions : Versions) (random : RandomSource) (log : List Event)
    (occurrences : List Occurrence) :
    Consistent (lived ⟨.new store versions, random, log⟩ occurrences)
      (live ⟨.new store versions, random, log⟩ occurrences).own ∧
    ∀ s c, (Moment.of (live ⟨.new store versions, random, log⟩ occurrences) s).Accepts (.auth1 c) →
      SealedFirst (live ⟨.new store versions, random, log⟩ occurrences) s := by
  have hconsistent := consistent_live (h := ⟨.new store versions, random, log⟩) rfl occurrences
  exact ⟨hconsistent, fun s c haccepts => sealedFirst_of_auth1 hconsistent.fits haccepts⟩

end Endpoint

end TapAccess
