import TapAccess.Proofs.CredentialStore
import TapAccess.Proofs.Crypto.Gcm
import TapAccess.Proofs.Crypto.KeyPairs
import TapAccess.Proofs.Meeting.Undisturbed

/-!
# Undisturbed transactions succeed

`transact_undisturbed`: a reader whose key is the one stored for its group and an endpoint with a version in
common come to an authorized transaction. Without a matching device AUTH1 is sent, and the key that the reader
adds to its list is the one that the endpoint now keeps for it; with one, CONTROL_FLOW takes its place.

`Tallies` carries the proof of the standard path: the session that the endpoint remembers and the handshake that
the reader has opened name the same things and derive the same keys. Both signatures are then made over what the
other side verifies, and the endpoint's answer is opened with the keys that it was sealed with. That a signature
comes about at all is left to `Encounter.Signs`, as a nonce may be useless in principle.
-/

namespace TapAccess.Meeting

open TapAccess.Action Reader

/-! ### One handshake, seen from both sides -/

/-- What the endpoint remembers in the session is what the reader knows of the handshake. -/
structure Tallies (m : Encounter) (session : Session) : Prop where
  handshake : session.handshake = m.opening.handshake m.configuration
  derivation : session.derivation m.endpoint.versions.encode = m.opening.derivation m.configuration
  secret : session.secret = m.opening.secret
  credential : session.credential = m.session.credential
  counter : session.channel.counter = 1

theorem tallies_of_channel (m : Encounter) {channel : Channel} (hcounter : channel.counter = 1) :
    Tallies m { m.session with channel } := by
  obtain ⟨endpointEphemeral, credential, hsession⟩ : ∃ endpointEphemeral credential,
    m.session = Endpoint.sessionOf m.command.named endpointEphemeral credential := ⟨_, _, rfl⟩
  have hopening : m.opening = ⟨m.command, m.readerEphemeral, m.endpoint.openedResponse m.command.named
      (Endpoint.sessionOf m.command.named endpointEphemeral credential), m.endpoint.versions.encode⟩ := by
    rw [Encounter.opening, hsession]
  rw [hsession]
  have hhandshake : Session.handshake { Endpoint.sessionOf m.command.named endpointEphemeral credential with channel }
      = m.opening.handshake m.configuration := by
    rw [hopening]
    rfl
  refine ⟨hhandshake, ?_, ?_, by rw [hsession], hcounter⟩
  · rw [Session.derivation, hhandshake, Opening.derivation]
    show StandardDerivation.mk _ m.command.named.flag _ _ = _
    rw [Auth0Command.flag_named, hopening]
    rfl
  · rw [hopening]
    exact KeyPair.agree_comm endpointEphemeral m.readerEphemeral m.name.toList

theorem exists_tallies (m : Encounter) : ∃ session, Tallies m session ∧
    (m.opened.transaction = .auth0FastDone session ∨ m.opened.transaction = .auth0StandardDone session) := by
  have htransaction : m.opened.transaction = m.endpoint.openedTransaction m.command.named m.session := rfl
  rw [htransaction, Endpoint.openedTransaction]
  by_cases hfast : m.command.named.fast = true
  · rw [if_pos hfast]
    exact ⟨_, tallies_of_channel m rfl, Or.inl rfl⟩
  · rw [if_neg hfast]
    exact ⟨m.session, tallies_of_channel m (rfl : m.session.channel.counter = 1), Or.inr rfl⟩

/-! ### AUTH1 -/

/-- Each side comes to a signature of the handshake. -/
structure Encounter.Signs (m : Encounter) : Prop where
  reader : ∃ signature, Signature.make m.configuration.keyPair.privateKey
    ((m.opening.handshake m.configuration).authenticationData .reader) = .ok signature
  endpoint : ∃ signature, Signature.make m.session.credential.keyPair.privateKey
    ((m.opening.handshake m.configuration).authenticationData .endpoint) = .ok signature

/-- The key that the endpoint has stored for the reader's group is the reader's. -/
def Trusts (e : Endpoint) (configuration : Configuration) : Prop :=
  ∃ group, e.store.findGroup configuration.identifier.group = some group ∧
    group.publicKey = configuration.keyPair.publicKey

theorem Trusts.groupKey_eq {e : Endpoint} {configuration : Configuration} (htrusts : Trusts e configuration) :
    e.store.groupKey configuration.identifier.group = configuration.keyPair.publicKey := by
  obtain ⟨group, hfind, hkey⟩ := htrusts
  rw [CredentialStore.groupKey, hfind, Option.getD_some, hkey]

theorem proves_of_seal? {m : Encounter} {credential : Credential} {signature : Signature} {sealed : Bytes}
    (hmade : Signature.make credential.keyPair.privateKey
      ((m.opening.handshake m.configuration).authenticationData .endpoint) = .ok signature)
    (hsealed : Gcm.seal? ((m.opening.derivation m.configuration).channelKeys m.opening.secret).exchangeDevice
      (Channel.nonce 1) (Auth1Plaintext.encode ⟨signature, some credential.publicKey, none⟩) = some sealed) :
    Proves m.opening m.configuration sealed credential.publicKey :=
  ⟨_, _, Gcm.unseal?_of_seal? hsealed, Auth1Plaintext.decode_encode_named signature _, rfl,
    KeyPair.verify_make hmade⟩

def Encounter.sharedKey (m : Encounter) : PersistentKey :=
  (m.opening.derivation m.configuration).persistentKey m.opening.secret

/-- The endpoint once it has answered AUTH1 in the given session. -/
def Encounter.completed (m : Encounter) (session : Session) : Endpoint where
  store := m.endpoint.store.putPersistentKey m.configuration.identifier m.sharedKey
  transaction := .auth1Done session
  versions := m.endpoint.versions

/-- The endpoint accepts the reader's signature, keeps the shared key and proves its own. -/
theorem exists_reply_auth1 {m : Encounter} {signature : Signature} (htrusts : Trusts m.endpoint m.configuration)
    (hsigns : m.Signs) (hsigned : Signature.make m.configuration.keyPair.privateKey
      ((m.opening.handshake m.configuration).authenticationData .reader) = .ok signature) :
    ∃ sealed session, session.credential = m.session.credential ∧
      m.opened.reply m.openedRandom (Auth1Command.ofSignature signature).encode
        = ⟨⟨.known .ok, sealed⟩, m.completed session, m.openedRandom⟩ ∧
      Proves m.opening m.configuration sealed m.session.credential.publicKey := by
  obtain ⟨session, htallies, hopen⟩ := exists_tallies m
  obtain ⟨countersignature, hcountersigned⟩ := hsigns.endpoint
  have hidentifier : session.readerIdentifier = m.configuration.identifier :=
    congrArg Handshake.readerIdentifier htallies.handshake
  have hverify : Signature.verify (m.opened.store.groupKey session.readerIdentifier.group)
      (session.handshake.authenticationData .reader)
      (Auth1Command.ofSignature signature).readerSignature.toList = true := by
    rw [hidentifier, htallies.handshake]
    show Signature.verify (m.endpoint.store.groupKey m.configuration.identifier.group) _ signature.toList = true
    rw [htrusts.groupKey_eq]
    exact KeyPair.verify_make hsigned
  have hmade := hcountersigned
  rw [← htallies.credential, ← htallies.handshake] at hmade
  obtain ⟨channel, sealed, hanswer, hsealed⟩ := Endpoint.exists_countersigned
    ((session.derivation m.endpoint.versions.encode).channelKeys session.secret) hmade
  rw [htallies.counter, htallies.derivation, htallies.secret, htallies.credential] at hsealed
  have hsettle : m.opened.settle m.openedRandom (.auth1 (.ofSignature signature)) = _ :=
    (Endpoint.settleAuth1_of_open hopen).trans (Endpoint.settleSession_of_verify hverify hanswer)
  have hstored : (m.opened.withSharedKey session).store
      = m.endpoint.store.putPersistentKey m.configuration.identifier m.sharedKey := by
    rw [Encounter.sharedKey, ← htallies.derivation, ← htallies.secret, ← hidentifier]
    rfl
  refine ⟨sealed, { session with channel }, htallies.credential, ?_, proves_of_seal? hcountersigned hsealed⟩
  rw [Endpoint.reply_of_decode (Auth1Command.decode_ofSignature signature), hsettle]
  unfold Encounter.completed
  rw [← hstored]
  rfl

theorem reply_controlFlow {m : Encounter} (hfast : m.configuration.sendFastTransaction = true) :
    m.opened.reply m.openedRandom ControlFlowCommand.success.encode =
      ⟨ControlFlowResponse.noted.toResponse, m.selected, m.openedRandom⟩ := by
  have hlegal : Phase.Legal m.opened.transaction.phase Transaction.selectDone.phase := by
    have htransaction : m.opened.transaction = m.endpoint.openedTransaction m.command.named m.session := rfl
    have hnamed : m.command.named.fast = true := hfast
    rw [htransaction, Endpoint.openedTransaction, if_pos hnamed]
    exact (by decide : Phase.Legal .auth0FastDone .selectDone)
  have hsettle : m.opened.settle m.openedRandom (.controlFlow .success) =
      ⟨.ok ControlFlowResponse.noted.toResponse, m.selected, m.openedRandom⟩ := if_pos hlegal
  rw [Endpoint.reply_of_decode ControlFlowCommand.decode_success, hsettle]
  rfl

/-! ### The ends of a transaction -/

theorem fast_of_known? {m : Encounter} {reader : Reader} {device : KnownDevice}
    (hknown : m.opening.known? reader = some device) : m.configuration.sendFastTransaction = true := by
  by_contra hnot
  have hnamed : ¬ m.command.named.fast = true := hnot
  have hnone : m.opening.response.cryptogram = none := if_neg hnamed
  rw [Opening.known?, hnone] at hknown
  cases hknown

variable {m : Encounter} {known : KnownDevices}

theorem known?_eq_none_of_size (hempty : known.size = 0) : m.opening.known? ⟨m.configuration, known⟩ = none := by
  have hlist : known.devices = [] := List.eq_nil_of_length_eq_zero hempty
  rw [known?_eq_none_iff, hlist]
  simp

theorem known?_eq_none_of_fast (hfast : m.configuration.sendFastTransaction = false) :
    m.opening.known? ⟨m.configuration, known⟩ = none := by
  cases hknown : m.opening.known? ⟨m.configuration, known⟩ with
  | none => rfl
  | some device =>
    rw [fast_of_known? hknown] at hfast
    cases hfast

/-- The host when the reader has the endpoint's answer to AUTH0. -/
def Encounter.host (m : Encounter) (known : KnownDevices) (exchanges : List Exchange) (log : List Event) :
    Hosted Pair :=
  ⟨⟨⟨m.configuration, known⟩, (m.opened, exchanges)⟩, m.openedRandom, log⟩

theorem Encounter.compared_host (m : Encounter) (known : KnownDevices) (exchanges : List Exchange)
    (log : List Event) : compared m.opening (m.host known exchanges log) =
      m.host known exchanges (log ++ m.opening.remark ⟨m.configuration, known⟩) := rfl

theorem finish_of_signs (exchanges : List Exchange) (log : List Event)
    (hunmatched : m.opening.known? ⟨m.configuration, known⟩ = none)
    (htrusts : Trusts m.endpoint m.configuration) (hsigns : m.Signs) :
    ∃ signature answer session log', session.credential = m.session.credential ∧
      finish undisturbed m.opening (m.host known exchanges log) =
        .ok (.authorized m.command.transactionIdentifier m.session.credential.publicKey)
          ⟨⟨⟨m.configuration, known.add ⟨m.session.credential.publicKey, m.sharedKey⟩⟩,
            (m.completed session, exchanges ++ [((Auth1Command.ofSignature signature).encode, answer)])⟩,
            m.openedRandom, log'⟩ := by
  obtain ⟨signature, hsigned⟩ := hsigns.reader
  obtain ⟨sealed, session, hcredential, hreply, hproves⟩ := exists_reply_auth1 htrusts hsigns hsigned
  obtain ⟨log₁, hresponds⟩ := responds_undisturbed ⟨m.configuration, known⟩ exchanges
    (log ++ m.opening.remark ⟨m.configuration, known⟩) hreply
  have hcomplete : StatusWord.sw1 (.known .ok) = 0x90 := by decide
  obtain ⟨log₂, hends⟩ := finishStandard_of_proves
    (h := m.host known exchanges (log ++ m.opening.remark ⟨m.configuration, known⟩)) hsigned hresponds hcomplete
    hproves
  refine ⟨signature, .ok (Response.encode ⟨.known .ok, sealed⟩), session, log₂, hcredential, ?_⟩
  rw [finish_eq_of_unmatched (h := m.host known exchanges log) hunmatched, m.compared_host]
  exact hends

theorem finish_of_device (exchanges : List Exchange) (log : List Event) {device : KnownDevice}
    (hknown : m.opening.known? ⟨m.configuration, known⟩ = some device) :
    ∃ answer log', finish undisturbed m.opening (m.host known exchanges log) =
      .ok (.authorized m.command.transactionIdentifier device.publicKey)
        ⟨⟨⟨m.configuration, known⟩, (m.selected, exchanges ++ [(ControlFlowCommand.success.encode, answer)])⟩,
          m.openedRandom, log'⟩ := by
  obtain ⟨log₁, hresponds⟩ := responds_undisturbed ⟨m.configuration, known⟩ exchanges
    (log ++ m.opening.remark ⟨m.configuration, known⟩) (reply_controlFlow (fast_of_known? hknown))
  obtain ⟨log₂, hends⟩ := finishFast_of_responds m.opening device hresponds
  refine ⟨.ok ControlFlowResponse.noted.toResponse.encode, log₂, ?_⟩
  rw [finish_eq_of_known (h := m.host known exchanges log) hknown, m.compared_host]
  exact hends

/-! ### Whole transactions -/

/-- The transaction ends on the standard path: AUTH1 is sent, the key of the credential in the endpoint's session is
authorized, and the reader adds the device with the key that the endpoint now keeps for it. -/
def EndsStandard (m : Encounter) (h : Hosted Pair) (verdict : Except TransactError Verdict) (h' : Hosted Pair) :
    Prop :=
  ∃ session signature,
    verdict = .ok (.authorized m.command.transactionIdentifier session.credential.publicKey) ∧
    sent h' = sent h ++ [SelectCommand.access.encode, m.command.encode,
      (Auth1Command.ofSignature signature).encode] ∧
    session.credential = m.session.credential ∧ h'.own.link.1.transaction = .auth1Done session ∧
    h'.own.link.1.versions = m.endpoint.versions ∧
    h'.own.link.1.store = m.endpoint.store.putPersistentKey m.configuration.identifier m.sharedKey ∧
    h'.own.link.1.store.findPersistentKey m.configuration.identifier = some m.sharedKey ∧
    h'.own.reader = ⟨m.configuration,
      h.own.reader.knownDevices.add ⟨session.credential.publicKey, m.sharedKey⟩⟩

/-- The transaction ends on the fast path: CONTROL_FLOW is sent instead of AUTH1, the device's key is authorized,
and neither side remembers anything new. -/
def EndsFast (m : Encounter) (device : KnownDevice) (h : Hosted Pair) (verdict : Except TransactError Verdict)
    (h' : Hosted Pair) : Prop :=
  verdict = .ok (.authorized m.command.transactionIdentifier device.publicKey) ∧
  sent h' = sent h ++ [SelectCommand.access.encode, m.command.encode, ControlFlowCommand.success.encode] ∧
  h'.own.link.1 = { m.endpoint with transaction := .selectDone } ∧ h'.own.reader = h.own.reader

theorem transact_of_encounter {code : TransactionCode} {h : Hosted Pair} (hm : m = .of code h)
    (hcompatible : Compatible m.configuration m.endpoint)
    (hready : m.endpoint.transaction.phase ≠ .auth0StandardDone) :
    ∃ log, (transact undisturbed code).outcome h =
      (finish undisturbed m.opening).outcome (m.host h.own.reader.knownDevices (h.own.link.2 ++ m.exchanges) log) := by
  obtain ⟨log, hopens⟩ := opens_undisturbed hm hcompatible hready
  have hreader : h.own.reader = ⟨m.configuration, h.own.reader.knownDevices⟩ := by rw [hm, Encounter.of]
  rw [hreader] at hopens
  exact ⟨log, transact_of_opens hopens⟩

theorem ends_standard {code : TransactionCode} {h : Hosted Pair} (hm : m = .of code h)
    (hcompatible : Compatible m.configuration m.endpoint) (htrusts : Trusts m.endpoint m.configuration)
    (hready : m.endpoint.transaction.phase ≠ .auth0StandardDone)
    (hunmatched : m.opening.known? ⟨m.configuration, h.own.reader.knownDevices⟩ = none) (hsigns : m.Signs) :
    EndsStandard m h ((transact undisturbed code).outcome h).1 ((transact undisturbed code).outcome h).2 := by
  obtain ⟨log, hrun⟩ := transact_of_encounter hm hcompatible hready
  obtain ⟨signature, answer, session, log', hcredential, hends⟩ :=
    finish_of_signs (h.own.link.2 ++ m.exchanges) log hunmatched htrusts hsigns
  rw [hrun, outcome_ok hends]
  refine ⟨session, signature, ?_, ?_, hcredential, rfl, rfl, rfl,
    CredentialStore.findPersistentKey_putPersistentKey _ _ _, ?_⟩
  · rw [hcredential]
  · simp only [sent, List.map_append, List.append_assoc]
    rfl
  · rw [hcredential]

theorem ends_fast {code : TransactionCode} {h : Hosted Pair} {device : KnownDevice} (hm : m = .of code h)
    (hcompatible : Compatible m.configuration m.endpoint)
    (hready : m.endpoint.transaction.phase ≠ .auth0StandardDone)
    (hknown : m.opening.known? ⟨m.configuration, h.own.reader.knownDevices⟩ = some device) :
    EndsFast m device h ((transact undisturbed code).outcome h).1 ((transact undisturbed code).outcome h).2 := by
  obtain ⟨log, hrun⟩ := transact_of_encounter hm hcompatible hready
  obtain ⟨answer, log', hends⟩ :=
    finish_of_device (h.own.link.2 ++ m.exchanges) log hknown
  have hreader : h.own.reader = ⟨m.configuration, h.own.reader.knownDevices⟩ := by rw [hm, Encounter.of]
  rw [hrun, outcome_ok hends]
  refine ⟨rfl, ?_, rfl, hreader.symm⟩
  simp only [sent, List.map_append, List.append_assoc]
  rfl

/-- An undisturbed transaction between a reader and an endpoint that has its group's key is authorized, on the
standard path when no known device matches and on the fast path for the first one that does. -/
theorem transact_undisturbed (code : TransactionCode) (h : Hosted Pair)
    (hcompatible : Compatible h.own.reader.configuration h.own.link.1)
    (htrusts : Trusts h.own.link.1 h.own.reader.configuration)
    (hready : h.own.link.1.transaction.phase ≠ .auth0StandardDone)
    (hsigns : (Encounter.of code h).opening.known? h.own.reader = none → (Encounter.of code h).Signs) :
    ((Encounter.of code h).opening.known? h.own.reader = none →
      EndsStandard (.of code h) h ((transact undisturbed code).outcome h).1
        ((transact undisturbed code).outcome h).2) ∧
    (∀ device, (Encounter.of code h).opening.known? h.own.reader = some device →
      EndsFast (.of code h) device h ((transact undisturbed code).outcome h).1
        ((transact undisturbed code).outcome h).2) ∧
    (h.own.reader.configuration.sendFastTransaction = false →
      (Encounter.of code h).opening.known? h.own.reader = none) := by
  refine ⟨fun hunmatched => ?_, fun device hknown => ?_, fun hoff => known?_eq_none_of_fast hoff⟩
  · exact ends_standard rfl hcompatible htrusts hready hunmatched (hsigns hunmatched)
  · exact ends_fast rfl hcompatible hready hknown

/-! ### A first meeting -/

/-- A reader with an empty list meets a new endpoint. -/
def start (configuration : Configuration) (store : CredentialStore) (versions : Versions)
    (random : RandomSource) (log : List Event) : Hosted Pair :=
  ⟨⟨⟨configuration, .empty⟩, (Endpoint.new store versions, [])⟩, random, log⟩

def firstReader : Configuration where
  identifier := ⟨.replicate 16 0x01, .replicate 16 0x02⟩
  keyPair := .ofPrivateKey ⟨2, by decide, by decide +kernel⟩

def firstCredential : Credential := ⟨.ofPrivateKey ⟨3, by decide, by decide +kernel⟩⟩

/-- The store of an endpoint with this one credential. -/
def firstStore : CredentialStore :=
  (CredentialStore.create ⟨fun _ => 0x04, 0⟩).1.enroll firstCredential
    ⟨firstReader.identifier.group, firstReader.keyPair.publicKey⟩

/-- The reader and the endpoint before they have met. -/
def firstHost : Hosted Pair := start firstReader firstStore .standard ⟨fun i => UInt8.ofNat (i + 1), 0⟩ []

theorem firstStore_findGroup : firstStore.findGroup firstReader.identifier.group =
    some ⟨firstReader.identifier.group, firstReader.keyPair.publicKey⟩ := by decide +kernel

theorem firstHost_signs : (Encounter.of .lock firstHost).Signs :=
  ⟨Except.exists_eq_ok_of_toBool (by decide +kernel), Except.exists_eq_ok_of_toBool (by decide +kernel)⟩

theorem transact_undisturbed_first :
    Compatible firstReader firstHost.own.link.1 ∧ Trusts firstHost.own.link.1 firstReader ∧
    firstHost.own.link.1.transaction.phase ≠ .auth0StandardDone ∧ (Encounter.of .lock firstHost).Signs ∧
    EndsStandard (.of .lock firstHost) firstHost ((transact undisturbed .lock).outcome firstHost).1
      ((transact undisturbed .lock).outcome firstHost).2 := by
  have hcompatible : Compatible firstReader firstHost.own.link.1 := ⟨by decide, 0x0100, by decide, by decide⟩
  have htrusts : Trusts firstHost.own.link.1 firstReader := by
    refine ⟨⟨firstReader.identifier.group, firstReader.keyPair.publicKey⟩, firstStore_findGroup, ?_⟩
    dsimp only
  have hready : firstHost.own.link.1.transaction.phase ≠ .auth0StandardDone := by decide
  refine ⟨hcompatible, htrusts, hready, firstHost_signs, ?_⟩
  exact (transact_undisturbed .lock firstHost hcompatible htrusts hready fun _ => firstHost_signs).1
    (known?_eq_none_of_size rfl)

end TapAccess.Meeting
