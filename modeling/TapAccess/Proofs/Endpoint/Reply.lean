import TapAccess.Endpoint
import TapAccess.Proofs.Action

/-!
# What an endpoint replies

`reply` is the answer to a frame as a function of the endpoint and the source of randomness, with the endpoint
and the source afterwards. `answer_yields` says that answering a frame comes to just that, whatever has been
logged before, and never fails. `settle` does the same for a request that has been read: its four cases are
what `select`, `auth0`, `auth1` and `controlFlow` come to (`perform_yields`).
-/

namespace TapAccess

namespace CredentialStore

/-- The key that the readers of a group sign with: the one that is stored, or the dummy's. -/
def groupKey (s : CredentialStore) (group : Identifier) : PublicKey :=
  ((s.findGroup group).getD s.dummyGroup).publicKey

/-- The key shared with a reader: the one that is stored, or the dummy. -/
def sharedKey (s : CredentialStore) (reader : ReaderIdentifier) : PersistentKey :=
  (s.findPersistentKey reader).getD s.dummyPersistentKey

end CredentialStore

namespace Endpoint

open TapAccess.Action

/-! ### Requests -/

/-- What a request comes to. -/
structure Outcome where
  result : Except ProtocolError Response
  endpoint : Endpoint
  random : RandomSource

/-- The response that is sent, a status word when the request failed. -/
def Outcome.response (o : Outcome) : Response :=
  match o.result with
  | .ok response => response
  | .error e => .ofCode e.responseCode

/-- The credential that answers to a group of readers, and the source after the choice. -/
def choice (e : Endpoint) (random : RandomSource) (group : Identifier) : Credential × RandomSource :=
  let chosen := random.choose? (e.store.findCredentials group)
  (chosen.1.getD e.store.dummyCredential, chosen.2)

/-- The session that a command opens with a key pair and a credential, still without keys of a channel. -/
def sessionOf (c : Auth0Command) (endpointEphemeral : KeyPair) (credential : Credential) : Session where
  transactionIdentifier := c.transactionIdentifier
  readerIdentifier := c.readerIdentifier
  credential := credential
  readerEphemeral := c.readerEphemeral
  endpointEphemeral := endpointEphemeral
  flag := c.flag
  channel := .new
  version := c.version

/-- The session that AUTH0 opens. -/
def freshSession (e : Endpoint) (random : RandomSource) (c : Auth0Command) : Session :=
  sessionOf c random.keyPair.1 (e.choice random.keyPair.2 c.readerIdentifier.group).1

/-- What the cryptogram and the keys of a fast transaction are derived from. -/
def fastInput (e : Endpoint) (c : Auth0Command) (session : Session) : FastDerivation where
  transactionIdentifier := c.transactionIdentifier
  endpointKey := session.credential.publicKey
  readerKey := e.store.groupKey c.readerIdentifier.group
  readerIdentifier := c.readerIdentifier
  persistentKey := e.store.sharedKey c.readerIdentifier
  version := c.version
  supportedVersions := e.versions.encode
  readerEphemeral := c.readerEphemeral
  endpointEphemeral := session.endpointEphemeral.publicKey
  flag := c.flag

/-- The transaction that AUTH0 leaves. -/
def openedTransaction (e : Endpoint) (c : Auth0Command) (session : Session) : Transaction :=
  if c.fast then .auth0FastDone { session with channel := .new (some (e.fastInput c session).keys) }
  else .auth0StandardDone session

/-- The answer to AUTH0. -/
def openedResponse (e : Endpoint) (c : Auth0Command) (session : Session) : Auth0Response where
  endpointEphemeral := session.endpointEphemeral.publicKey
  cryptogram := if c.fast then some (e.fastInput c session).cryptogram else none

/-- The endpoint after it has kept the key that both sides derive. -/
def withSharedKey (e : Endpoint) (session : Session) : Endpoint :=
  let key := (session.derivation e.versions.encode).persistentKey session.secret
  { e with store := e.store.putPersistentKey session.readerIdentifier key }

/-- The channel and the answer to AUTH1: the endpoint's signature under the given keys. -/
def countersigned (session : Session) (keys : ChannelKeys) : Except ProtocolError (Channel × Auth1Response) := do
  let endpointSignature ← Signature.make session.credential.keyPair.privateKey
    (session.handshake.authenticationData .endpoint)
  Auth1Response.encrypt (session.channel.withKeys keys)
    { endpointSignature, endpointKey := some session.credential.publicKey, keySlot := none }

/-- Moving on to `target` with the given response, when that is allowed. -/
def settleMove (e : Endpoint) (random : RandomSource) (target : Transaction) (response : Response) : Outcome :=
  if Phase.Legal e.transaction.phase target.phase then ⟨.ok response, { e with transaction := target }, random⟩
  else ⟨.error (.illegalTransition e.transaction.phase target.phase), e, random⟩

/-- What AUTH0 comes to. -/
def settleAuth0 (e : Endpoint) (random : RandomSource) (c : Auth0Command) : Outcome :=
  if e.transaction.phase ≠ .selectDone then ⟨.error (.outOfOrder "SELECT"), e, random⟩
  else if ¬ e.versions.Supports c.version then ⟨.error (.unsupportedVersion c.version), e, random⟩
  else
    let session := e.freshSession random c
    { result := .ok (e.openedResponse c session).toResponse
      endpoint := { e with transaction := e.openedTransaction c session }
      random := (e.choice random.keyPair.2 c.readerIdentifier.group).2 }

/-- What AUTH1 comes to once the reader's signature is verified. -/
def settleAnswer (e : Endpoint) (random : RandomSource) (session : Session) :
    Except ProtocolError (Channel × Auth1Response) → Outcome
  | .ok (channel, response) =>
    ⟨.ok response.toResponse, { e with transaction := .auth1Done { session with channel } }, random⟩
  | .error cause => ⟨.error cause, e, random⟩

/-- What AUTH1 comes to in an open session. -/
def settleSession (e : Endpoint) (random : RandomSource) (c : Auth1Command) (session : Session) : Outcome :=
  if ¬ Signature.verify (e.store.groupKey session.readerIdentifier.group)
      (session.handshake.authenticationData .reader) c.readerSignature.toList then
    ⟨.error (.invalidSignature "reader"), e, random⟩
  else
    (e.withSharedKey session).settleAnswer random session
      (countersigned session ((session.derivation e.versions.encode).channelKeys session.secret))

/-- What AUTH1 comes to. -/
def settleAuth1 (e : Endpoint) (random : RandomSource) (c : Auth1Command) : Outcome :=
  match e.transaction with
  | .auth0FastDone session | .auth0StandardDone session => e.settleSession random c session
  | _ => ⟨.error (.outOfOrder "AUTH0"), e, random⟩

/-- What a request comes to. -/
def settle (e : Endpoint) (random : RandomSource) : Request → Outcome
  | .select _ => e.settleMove random .selectDone (SelectResponse.ofVersions e.versions).toResponse
  | .auth0 c => e.settleAuth0 random c
  | .auth1 c => e.settleAuth1 random c
  | .controlFlow _ => e.settleMove random .selectDone ControlFlowResponse.noted.toResponse

/-! ### What the steps come to -/

variable {h : Hosted Endpoint}

theorem moveTo_yields_ok {target : Transaction} (hlegal : Phase.Legal h.own.transaction.phase target.phase) :
    Yields (onTransaction (Transaction.moveTo target)) h (.ok ()) { h.own with transaction := target }
      h.random := by
  refine yields_within fun log => yields_bind_ok yields_own fun _ => ?_
  rw [if_pos hlegal]
  exact yields_bind_ok (yields_record _) fun _ => yields_update _

theorem moveTo_yields_error {target : Transaction} (hillegal : ¬ Phase.Legal h.own.transaction.phase target.phase) :
    Yields (onTransaction (Transaction.moveTo target)) h
      (.error (.illegalTransition h.own.transaction.phase target.phase)) h.own h.random := by
  refine yields_within fun log => yields_bind_ok yields_own fun _ => ?_
  rw [if_neg hillegal]
  exact yields_bind_ok (yields_record _) fun _ => yields_throw _

theorem groupKey_yields (group : Identifier) (complaint : String) :
    Yields (Endpoint.groupKey group complaint) h (.ok (h.own.store.groupKey group)) h.own h.random := by
  refine yields_bind_ok yields_own fun _ => ?_
  unfold CredentialStore.groupKey
  dsimp only
  cases h.own.store.findGroup group with
  | some known => exact yields_pure _
  | none => exact yields_bind_ok (yields_record _) fun _ => yields_pure _

theorem persistentKey_yields (reader : ReaderIdentifier) :
    Yields (Endpoint.persistentKey reader) h (.ok (h.own.store.sharedKey reader)) h.own h.random := by
  refine yields_bind_ok yields_own fun _ => ?_
  unfold CredentialStore.sharedKey
  dsimp only
  cases h.own.store.findPersistentKey reader with
  | some known => exact yields_pure _
  | none => exact yields_bind_ok (yields_record _) fun _ => yields_pure _

theorem chooseCredential_yields (group : Identifier) :
    Yields (chooseCredential group) h
      (.ok (h.own.choice h.random group).1) h.own (h.own.choice h.random group).2 := by
  refine yields_bind_ok yields_own fun _ => ?_
  dsimp only
  split
  · exact yields_bind_ok (yields_record _) fun _ => yields_bind_ok (yields_draw _) fun _ => yields_pure _
  · exact yields_bind_ok (yields_draw _) fun _ => yields_pure _

theorem fastDerivation_yields (c : Auth0Command) (session : Session) :
    Yields (fastDerivation c session) h (.ok (h.own.fastInput c session)) h.own h.random := by
  refine yields_bind_ok (groupKey_yields _ _) fun _ => yields_bind_ok yields_own fun _ =>
    yields_bind_ok (yields_record _) fun _ => yields_bind_ok (persistentKey_yields _) fun _ =>
      yields_bind_ok yields_own fun _ => yields_pure _

/-! ### What requests come to -/

/-- The action comes to the given outcome. -/
def Settles (a : Action ProtocolError Endpoint Response) (h : Hosted Endpoint) (o : Outcome) : Prop :=
  Yields a h o.result o.endpoint o.random

theorem move_settles {target : Transaction} {response : Response}
    {rest : Unit → Action ProtocolError Endpoint Response}
    (hrest : ∀ log, Yields (rest ()) ⟨{ h.own with transaction := target }, h.random, log⟩ (.ok response)
      { h.own with transaction := target } h.random) :
    Settles (onTransaction (Transaction.moveTo target) >>= rest) h
      (h.own.settleMove h.random target response) := by
  unfold Settles settleMove
  by_cases hlegal : Phase.Legal h.own.transaction.phase target.phase
  · rw [if_pos hlegal]
    exact yields_bind_ok (moveTo_yields_ok hlegal) hrest
  · rw [if_neg hlegal]
    exact yields_bind_error (moveTo_yields_error hlegal)

theorem select_settles (c : SelectCommand) :
    Settles (Endpoint.select c) h
      (h.own.settleMove h.random .selectDone (SelectResponse.ofVersions h.own.versions).toResponse) := by
  unfold Endpoint.select
  split
  · exact yields_bind_ok (yields_record _) fun log =>
      move_settles (h := ⟨h.own, h.random, log⟩) fun _ => yields_bind_ok yields_own fun _ => yields_pure _
  · exact move_settles fun _ => yields_bind_ok yields_own fun _ => yields_pure _

theorem controlFlow_settles (c : ControlFlowCommand) :
    Settles (Endpoint.controlFlow c) h
      (h.own.settleMove h.random .selectDone ControlFlowResponse.noted.toResponse) :=
  yields_bind_ok (yields_record _) fun log =>
    move_settles (h := ⟨h.own, h.random, log⟩) fun _ => yields_pure _

theorem openSession_yields {c : Auth0Command} (session : Session)
    (hready : h.own.transaction.phase = .selectDone) :
    Yields (if c.fast then do
        Action.debug "processing AUTH0 as a fast transaction"
        let derivation ← fastDerivation c session
        onTransaction (Transaction.moveTo
          (.auth0FastDone { session with channel := .new (some derivation.keys) }))
        return (Auth0Response.mk session.endpointEphemeral.publicKey (some derivation.cryptogram)).toResponse
      else do
        Action.debug "processing AUTH0 as a standard transaction"
        onTransaction (Transaction.moveTo (.auth0StandardDone session))
        return (Auth0Response.mk session.endpointEphemeral.publicKey none).toResponse)
      h (.ok (h.own.openedResponse c session).toResponse)
      { h.own with transaction := h.own.openedTransaction c session } h.random := by
  unfold openedTransaction openedResponse
  by_cases hfast : c.fast = true
  · rw [if_pos hfast, if_pos hfast, if_pos hfast]
    refine yields_bind_ok (yields_record _) fun _ => yields_bind_ok (fastDerivation_yields c _) fun _ =>
      yields_bind_ok (moveTo_yields_ok ?_) fun _ => yields_pure _
    show Phase.Legal h.own.transaction.phase .auth0FastDone
    rw [hready]
    decide
  · rw [if_neg hfast, if_neg hfast, if_neg hfast]
    refine yields_bind_ok (yields_record _) fun _ => yields_bind_ok (moveTo_yields_ok ?_) fun _ => yields_pure _
    show Phase.Legal h.own.transaction.phase .auth0StandardDone
    rw [hready]
    decide

theorem auth0_settles (c : Auth0Command) :
    Settles (Endpoint.auth0 c) h (h.own.settleAuth0 h.random c) := by
  refine yields_bind_ok yields_own fun log => ?_
  unfold settleAuth0
  by_cases hphase : h.own.transaction.phase ≠ .selectDone
  · rw [if_pos hphase, if_pos hphase]
    exact yields_throw _
  rw [if_neg hphase, if_neg hphase]
  by_cases hversion : ¬ h.own.versions.Supports c.version
  · rw [if_pos hversion, if_pos hversion]
    exact yields_throw _
  rw [if_neg hversion, if_neg hversion]
  have hready : h.own.transaction.phase = .selectDone := Decidable.not_not.mp hphase
  have hdraw {log : List Event} : Yields (Action.draw RandomSource.keyPair) ⟨h.own, h.random, log⟩
    (.ok h.random.keyPair.1 : Except ProtocolError _) h.own h.random.keyPair.2 := yields_draw _
  unfold freshSession
  -- what is drawn stands for itself, so that nothing looks into the draw
  generalize h.random.keyPair = drawn at hdraw ⊢
  exact yields_bind_ok hdraw fun _ => yields_bind_ok (chooseCredential_yields _) fun _ =>
    openSession_yields (sessionOf c drawn.1 _) hready

theorem countersign_settles {session : Session} {keys : ChannelKeys}
    (hlegal : Phase.Legal h.own.transaction.phase .auth1Done) :
    Settles (do
      let endpointSignature ← Action.ofExcept (Signature.make session.credential.keyPair.privateKey
        (session.handshake.authenticationData .endpoint))
      let message : Auth1Plaintext :=
        { endpointSignature, endpointKey := some session.credential.publicKey, keySlot := none }
      let (channel, response) ← Action.ofExcept
        (Auth1Response.encrypt (session.channel.withKeys keys) message)
      onTransaction (Transaction.moveTo (.auth1Done { session with channel }))
      Action.debug "AUTH1 complete"
      return response.toResponse) h
      (h.own.settleAnswer h.random session (countersigned session keys)) := by
  unfold countersigned
  generalize session.channel.withKeys keys = channel
  have hsign (log : List Event) := yields_ofExcept (h := ⟨h.own, h.random, log⟩)
    (Signature.make session.credential.keyPair.privateKey (session.handshake.authenticationData .endpoint))
  generalize Signature.make session.credential.keyPair.privateKey
    (session.handshake.authenticationData .endpoint) = signed at hsign ⊢
  cases signed with
  | error e => exact yields_bind_error (hsign h.log)
  | ok endpointSignature =>
    refine yields_bind_ok (hsign h.log) fun _ => ?_
    show Settles _ _ (settleAnswer _ _ _ (Auth1Response.encrypt channel
      { endpointSignature, endpointKey := some session.credential.publicKey, keySlot := none }))
    have hencrypt {log : List Event} := yields_ofExcept (h := ⟨h.own, h.random, log⟩)
      (Auth1Response.encrypt channel
        { endpointSignature, endpointKey := some session.credential.publicKey, keySlot := none })
    dsimp only
    generalize Auth1Response.encrypt channel
      { endpointSignature, endpointKey := some session.credential.publicKey, keySlot := none } = encrypted
      at hencrypt ⊢
    cases encrypted with
    | error e => exact yields_bind_error hencrypt
    | ok both =>
      exact yields_bind_ok hencrypt fun _ => yields_bind_ok (moveTo_yields_ok hlegal) fun _ =>
        yields_bind_ok (yields_record _) fun _ => yields_pure _

theorem session_settles {session : Session} (c : Auth1Command)
    (hopen : openSession h = .ok session h) (hlegal : Phase.Legal h.own.transaction.phase .auth1Done) :
    Settles (Endpoint.auth1 c) h (h.own.settleSession h.random c session) := by
  have hsession : Yields openSession h (.ok session) h.own h.random := ⟨h.log, outcome_ok hopen⟩
  refine yields_bind_ok hsession fun _ => yields_bind_ok (groupKey_yields _ _) fun _ => ?_
  unfold settleSession withSharedKey
  dsimp only
  generalize Signature.verify (h.own.store.groupKey session.readerIdentifier.group)
    (session.handshake.authenticationData .reader) c.readerSignature.toList = verified
  cases verified with
  | false => exact yields_bind_ok (yields_record _) fun _ => yields_throw _
  | true =>
    rw [if_neg (not_not_intro rfl), if_neg (not_not_intro rfl)]
    refine yields_bind_ok (yields_record _) fun _ => yields_bind_ok yields_own fun _ => ?_
    dsimp only
    -- the derived keys stand for themselves
    generalize (session.derivation h.own.versions.encode).persistentKey session.secret = key
    generalize (session.derivation h.own.versions.encode).channelKeys session.secret = keys
    have hstored {log : List Event} : Yields (onStore (CredentialStore.storePersistentKey
        session.readerIdentifier key)) ⟨h.own, h.random, log⟩ (.ok () : Except ProtocolError Unit)
        { h.own with store := h.own.store.putPersistentKey session.readerIdentifier key } h.random :=
      yields_within fun _ => yields_bind_ok (yields_record _) fun _ => yields_update _
    exact yields_bind_ok hstored fun log => countersign_settles hlegal

theorem auth1_settles (c : Auth1Command) : Settles (Endpoint.auth1 c) h (h.own.settleAuth1 h.random c) := by
  have hclosed (hnone : openSession h = .error (.outOfOrder "AUTH0") h) :
      Settles (Endpoint.auth1 c) h ⟨.error (.outOfOrder "AUTH0"), h.own, h.random⟩ :=
    yields_bind_error ⟨h.log, outcome_error hnone⟩
  unfold settleAuth1
  obtain ⟨⟨store, transaction, versions⟩, random, log⟩ := h
  cases transaction with
  | initial => exact hclosed rfl
  | selectDone => exact hclosed rfl
  | auth0FastDone session => exact session_settles c rfl (show Phase.Legal .auth0FastDone _ by decide)
  | auth0StandardDone session => exact session_settles c rfl (show Phase.Legal .auth0StandardDone _ by decide)
  | auth1Done session => exact hclosed rfl

theorem perform_settles (request : Request) : Settles (perform request) h (h.own.settle h.random request) := by
  cases request with
  | select c => exact select_settles c
  | auth0 c => exact auth0_settles c
  | auth1 c => exact auth1_settles c
  | controlFlow c => exact controlFlow_settles c

/-! ### Frames -/

/-- What an endpoint sends back, and the endpoint and the source of randomness after it. -/
structure Reply where
  response : Response
  endpoint : Endpoint
  random : RandomSource

/-- The reply to a frame. -/
def reply (e : Endpoint) (random : RandomSource) (frame : Bytes) : Reply :=
  match Request.decode frame with
  | .error cause => ⟨.ofCode cause.responseCode, e, random⟩
  | .ok request =>
    let o := e.settle random request
    ⟨o.response, o.endpoint, o.random⟩

theorem receive_yields (frame : Bytes) :
    Yields (Request.receive frame : Action ProtocolError Endpoint Request) h (Request.decode frame) h.own
      h.random := by
  have hreceive : Yields (Command.receive frame : Action Command.FramingError Endpoint Command) h
      (Command.decode frame) h.own h.random := by
    refine yields_bind_ok (yields_record _) fun _ => ?_
    cases Command.decode frame with
    | ok command => exact yields_bind_ok (yields_record _) fun _ => yields_pure _
    | error e =>
      dsimp only
      cases e.details? with
      | some details => exact yields_bind_ok (yields_record _) fun _ => yields_throw _
      | none => exact yields_throw _
  have hframe := yields_mapError (f := ProtocolError.ofFraming) hreceive
  unfold Request.receive Request.decode
  cases hcommand : (Command.decode frame).mapError ProtocolError.ofFraming with
  | error e =>
    rw [hcommand] at hframe
    exact yields_bind_error hframe
  | ok command =>
    rw [hcommand] at hframe
    exact yields_bind_ok hframe fun _ => yields_ofExcept _

theorem refuse_yields {ε : Type} (what : String) (e : ProtocolError) :
    Yields (refuse what e : Action ε Endpoint Response) h (.ok (.ofCode e.responseCode)) h.own h.random :=
  yields_bind_ok (yields_record _) fun _ => yields_pure _

theorem respond_yields {ε : Type} (request : Request) :
    Yields (respond request : Action ε Endpoint Response) h
      (.ok (h.own.settle h.random request).response) (h.own.settle h.random request).endpoint
      (h.own.settle h.random request).random := by
  refine yields_bind_ok (yields_attempt (perform_settles request)) fun _ => ?_
  unfold Outcome.response
  cases (h.own.settle h.random request).result with
  | ok response => exact yields_pure _
  | error e => exact refuse_yields _ e

/-- Answering a frame comes to what `reply` says, and never fails. -/
theorem answer_yields {ε : Type} (frame : Bytes) (h : Hosted Endpoint) :
    Yields (answer frame : Action ε Endpoint Bytes) h (.ok (h.own.reply h.random frame).response.encode)
      (h.own.reply h.random frame).endpoint (h.own.reply h.random frame).random := by
  refine yields_bind_ok (yields_attempt (receive_yields frame)) fun _ => ?_
  unfold reply
  cases Request.decode frame with
  | ok request =>
    exact yields_bind_ok (respond_yields request) fun _ => yields_bind_ok (yields_record _) fun _ => yields_pure _
  | error e =>
    exact yields_bind_ok (refuse_yields _ e) fun _ => yields_bind_ok (yields_record _) fun _ => yields_pure _

theorem deselect_yields {ε : Type} (h : Hosted Endpoint) :
    Yields (deselect : Action ε Endpoint Unit) h (.ok ()) { h.own with transaction := .initial } h.random := by
  unfold deselect onTransaction
  refine yields_within (t := Transaction.initial) fun _ => ?_
  exact yields_bind_ok yields_own fun _ => yields_bind_ok (yields_record _) fun _ => yields_update _

end Endpoint

end TapAccess
