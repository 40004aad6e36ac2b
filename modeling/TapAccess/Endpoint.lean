import TapAccess.Message.Request
import TapAccess.Transaction

/-!
# The endpoint

The credential holder answers one command frame at a time. Whatever goes wrong while a command is read
or acted on becomes a status word; the handshake goes on with the next command.
-/

namespace TapAccess

/-- A credential holder: what it keeps, how far the current handshake has come, and the versions it
supports. -/
structure Endpoint where
  store : CredentialStore
  transaction : Transaction
  versions : Versions
  deriving DecidableEq

namespace Endpoint

/-- An endpoint before its first command. -/
def new (store : CredentialStore) (versions : Versions := .standard) : Endpoint :=
  ⟨store, .initial, versions⟩

def onTransaction {ε α : Type} (a : Action ε Transaction α) : Action ε Endpoint α :=
  a.within transaction fun t e => { e with transaction := t }

def onStore {ε α : Type} (a : Action ε CredentialStore α) : Action ε Endpoint α :=
  a.within store fun s e => { e with store := s }

/-! ### SELECT -/

/-- Begins a handshake, whichever applet was asked for. -/
def select (c : SelectCommand) : Action ProtocolError Endpoint Response := do
  if c.aid ≠ SelectCommand.accessAid then
    Action.warn ("SELECT for foreign AID " ++ Hex.encode c.aid)
  onTransaction (Transaction.moveTo .selectDone)
  return (SelectResponse.ofVersions (← Action.own).versions).toResponse

/-! ### AUTH0 -/

/-- The credential to answer a group of readers with: any one of those enrolled for it, or the dummy. -/
def chooseCredential (group : Identifier) : Action ProtocolError Endpoint Credential := do
  let store := (← Action.own).store
  let enrolled := store.findCredentials group
  if enrolled = [] then
    Action.debug "no endpoint enrolled for reader group, using dummy endpoint"
  let chosen ← Action.draw fun r => r.choose? enrolled
  return chosen.getD store.dummyCredential

/-- The key of a group, or the dummy's. -/
def groupKey (group : Identifier) (complaint : String) : Action ProtocolError Endpoint PublicKey := do
  let store := (← Action.own).store
  match store.findGroup group with
  | some known => return known.publicKey
  | none =>
    Action.debug complaint
    return store.dummyGroup.publicKey

/-- The key shared with a reader, or the dummy. -/
def persistentKey (reader : ReaderIdentifier) : Action ProtocolError Endpoint PersistentKey := do
  let store := (← Action.own).store
  match store.findPersistentKey reader with
  | some known => return known
  | none =>
    Action.debug "no persistent key for reader, using dummy persistent key"
    return store.dummyPersistentKey

/-- What the cryptogram and the keys of a fast transaction depend on. -/
def fastDerivation (c : Auth0Command) (session : Session) : Action ProtocolError Endpoint FastDerivation := do
  let readerKey ← groupKey c.readerIdentifier.group "unknown reader group, using dummy reader group"
  Action.debug ("database status: " ++ (← Action.own).store.summary)
  let persistentKey ← persistentKey c.readerIdentifier
  return {
    transactionIdentifier := c.transactionIdentifier
    endpointKey := session.credential.publicKey
    readerKey
    readerIdentifier := c.readerIdentifier
    persistentKey
    version := c.version
    supportedVersions := (← Action.own).versions.encode
    readerEphemeral := c.readerEphemeral
    endpointEphemeral := session.endpointEphemeral.publicKey
    flag := c.flag }

/-- Opens a session. It has to follow SELECT and to use a version that is supported. -/
def auth0 (c : Auth0Command) : Action ProtocolError Endpoint Response := do
  let endpoint ← Action.own
  if endpoint.transaction.phase ≠ .selectDone then throw (.outOfOrder "SELECT")
  if ¬ endpoint.versions.Supports c.version then throw (.unsupportedVersion c.version)
  -- from here on nothing fails: what has been drawn is used
  let endpointEphemeral ← Action.draw RandomSource.keyPair
  let credential ← chooseCredential c.readerIdentifier.group
  let session : Session := {
    transactionIdentifier := c.transactionIdentifier
    readerIdentifier := c.readerIdentifier
    credential
    readerEphemeral := c.readerEphemeral
    endpointEphemeral
    flag := c.flag
    channel := .new
    version := c.version }
  if c.fast then
    Action.debug "processing AUTH0 as a fast transaction"
    let derivation ← fastDerivation c session
    onTransaction (Transaction.moveTo
      (.auth0FastDone { session with channel := .new (some derivation.keys) }))
    return (Auth0Response.mk endpointEphemeral.publicKey (some derivation.cryptogram)).toResponse
  else
    Action.debug "processing AUTH0 as a standard transaction"
    onTransaction (Transaction.moveTo (.auth0StandardDone session))
    return (Auth0Response.mk endpointEphemeral.publicKey none).toResponse

/-! ### AUTH1 -/

/-- The session that AUTH0 has opened. -/
def openSession : Action ProtocolError Endpoint Session := do
  match (← Action.own).transaction with
  | .auth0FastDone session | .auth0StandardDone session => return session
  | _ => throw (.outOfOrder "AUTH0")

/-- Verifies the reader's signature, keeps the key that both sides derive, and answers with the
endpoint's signature over the channel. -/
def auth1 (c : Auth1Command) : Action ProtocolError Endpoint Response := do
  let session ← openSession
  let readerKey ← groupKey session.readerIdentifier.group
    "unknown reader group, verifying against dummy reader group"
  let signed := session.handshake.authenticationData .reader
  if ¬ Signature.verify readerKey signed c.readerSignature.toList then
    Action.error "invalid reader signature"
    throw (.invalidSignature "reader")
  Action.debug "reader signature is valid"
  let derivation := session.derivation (← Action.own).versions.encode
  let secret := session.secret
  -- kept before the endpoint signs, so a signature that fails does not take it back
  onStore (CredentialStore.storePersistentKey session.readerIdentifier (derivation.persistentKey secret))
  let endpointSignature ← Action.ofExcept (Signature.make session.credential.keyPair.privateKey
    (session.handshake.authenticationData .endpoint))
  let message : Auth1Plaintext :=
    { endpointSignature, endpointKey := some session.credential.publicKey, keySlot := none }
  let (channel, response) ← Action.ofExcept
    (Auth1Response.encrypt (session.channel.withKeys (derivation.channelKeys secret)) message)
  onTransaction (Transaction.moveTo (.auth1Done { session with channel }))
  Action.debug "AUTH1 complete"
  return response.toResponse

/-! ### CONTROL_FLOW -/

/-- Takes note of how the reader acted and waits for the next handshake. -/
def controlFlow (c : ControlFlowCommand) : Action ProtocolError Endpoint Response := do
  Action.debug ("CONTROL_FLOW S1=" ++ Hex.byte c.s1 ++ " S2=" ++ Hex.byte c.s2)
  onTransaction (Transaction.moveTo .selectDone)
  return ControlFlowResponse.noted.toResponse

/-! ### Frames -/

def perform : Request → Action ProtocolError Endpoint Response
  | .select command => select command
  | .auth0 command => auth0 command
  | .auth1 command => auth1 command
  | .controlFlow command => controlFlow command

/-- The answer to a command that failed, which is logged with its cause. -/
def refuse {ε : Type} (what : String) (e : ProtocolError) : Action ε Endpoint Response := do
  Action.error (what ++ ": " ++ e.message ++ ", responding " ++ Hex.prefixed16 e.responseCode.value)
  return .ofCode e.responseCode

/-- Acts on a request; a failure becomes a status word. -/
def respond {ε : Type} (request : Request) : Action ε Endpoint Response := do
  match ← (perform request).attempt with
  | .ok response => return response
  | .error e => refuse (request.instruction.name ++ " failed") e

/-- Answers a command frame. -/
def answer {ε : Type} (frame : Bytes) : Action ε Endpoint Bytes := do
  let response ← match ← (Request.receive frame).attempt with
    | .ok request => respond request
    | .error e => refuse "could not parse command APDU" e
  Action.debug ("response: " ++ Hex.encode response.payload)
  return response.encode

/-- The reader went away; a handshake in progress is given up. -/
def deselect {ε : Type} : Action ε Endpoint Unit := onTransaction Transaction.stop

end Endpoint

end TapAccess
