import TapAccess.Message.Request
import TapAccess.Reader.Configuration
import TapAccess.Reader.KnownDevice

/-!
# The reader

A reader drives one transaction over a link that carries its commands to an endpoint. It selects the
applet, agrees on a version and opens a handshake. When the endpoint's cryptogram belongs to a known
device the transaction is over; otherwise both sides sign, and the device is known from then on.
-/

namespace TapAccess

/-- Who a reader is, and the devices that it has met. -/
structure Reader where
  configuration : Reader.Configuration
  knownDevices : Reader.KnownDevices

namespace Reader

def describe (r : Reader) : String :=
  "Reader \x7b identifier: " ++ r.configuration.identifier.describe
    ++ s!", known_devices: {r.knownDevices.size} \x7d"

/-! ### Links -/

/-- Carries one command to the endpoint and its answer back, or fails with a text. A link has a state of
its own and may do anything with it. -/
abbrev Link (σ : Type) := Bytes → Action String σ Bytes

/-- A command and what came back. -/
abbrev Exchange := Bytes × Except String Bytes

/-- The same link, which also writes down every exchange. -/
def Link.recorded {σ : Type} (link : Link σ) : Link (σ × List Exchange) := fun command => do
  let answer ← ((link command).within (·.1) fun s both => (s, both.2)).attempt
  Action.update fun (s, exchanges) => (s, exchanges ++ [(command, answer)])
  Action.ofExcept answer

/-- A reader and the link that it speaks over. -/
structure Linked (σ : Type) where
  reader : Reader
  link : σ

/-! ### Errors and results -/

/-- Why a transaction came to no result. -/
inductive TransactError where
  | protocol (cause : ProtocolError)
  | transport (cause : String)
  | rejected (command : String) (status : UInt16)
  deriving DecidableEq, Repr

def TransactError.message : TransactError → String
  | protocol cause => cause.message
  | transport cause => "transport failure: " ++ cause
  | rejected command status => command ++ " rejected with status " ++ Hex.prefixed16 status

inductive Verdict where
  | authorized (transactionIdentifier : Identifier) (endpointKey : PublicKey)
  | unauthorized
  deriving DecidableEq

section

variable {σ : Type} (link : Link σ)

/-! ### Exchanges -/

/-- Sends a command and reads the response frame. -/
def exchange (command : Bytes) : Action TransactError (Linked σ) Response := do
  Action.debug ("sending APDU: " ++ Hex.encode command)
  let answer ← ((link command).within Linked.link fun s l => { l with link := s }).mapError
    TransactError.transport
  Action.debug ("received APDU: " ++ Hex.encode answer)
  Action.ofExcept ((Response.parse answer).mapError TransactError.protocol)

/-- Selects the access applet; nothing when the endpoint refuses. -/
def sendSelect : Action TransactError (Linked σ) (Option SelectResponse) := do
  let response ← exchange link SelectCommand.access.encode
  if response.IsSuccess then
    return some (← Action.ofExcept ((SelectResponse.ofResponse response).mapError TransactError.protocol))
  else
    Action.warn ("SELECT answered " ++ Hex.prefixed16 response.status.value)
    return none

def sendControlFlow (c : ControlFlowCommand) : Action TransactError (Linked σ) ControlFlowResponse := do
  return .ofResponse (← exchange link c.encode)

/-- What AUTH0 has established. -/
structure Opening where
  command : Auth0Command
  readerEphemeral : KeyPair
  response : Auth0Response
  /-- The endpoint's versions, as it offered them. -/
  supportedVersions : Bytes

/-- Opens a handshake with a new ephemeral key and a new name for the transaction. -/
def sendAuth0 (code : TransactionCode) (version : Version) (supportedVersions : Bytes) :
    Action TransactError (Linked σ) Opening := do
  let configuration := (← Action.own).reader.configuration
  let readerEphemeral ← Action.draw RandomSource.keyPair
  let transactionIdentifier ← Action.draw (RandomSource.octets 16)
  let command : Auth0Command := {
    fast := configuration.sendFastTransaction
    transactionCode := code
    version
    readerEphemeral := readerEphemeral.publicKey
    transactionIdentifier
    readerIdentifier := configuration.identifier }
  let response ← exchange link command.encode
  if ¬ response.IsSuccess then throw (.rejected "AUTH0" response.status.value)
  let response ← Action.ofExcept ((Auth0Response.ofResponse response).mapError TransactError.protocol)
  return { command, readerEphemeral, response, supportedVersions }

/-! ### The fast path -/

/-- What the cryptogram of a known device depends on in this handshake. -/
def Opening.fastDerivation (o : Opening) (configuration : Configuration) (device : KnownDevice) :
    FastDerivation where
  transactionIdentifier := o.command.transactionIdentifier
  endpointKey := device.publicKey
  readerKey := configuration.keyPair.publicKey
  readerIdentifier := configuration.identifier
  persistentKey := device.persistentKey
  version := o.command.version
  supportedVersions := o.supportedVersions
  readerEphemeral := o.command.readerEphemeral
  endpointEphemeral := o.response.endpointEphemeral
  flag := o.command.flag

/-- The first device in the list to which the cryptogram belongs. -/
def Opening.matching? (o : Opening) (configuration : Configuration) (devices : KnownDevices)
    (cryptogram : Cryptogram) : Option KnownDevice :=
  devices.devices.find? fun device => (o.fastDerivation configuration device).cryptogram = cryptogram

/-- The first known device that the endpoint has shown to be; nothing when it has shown nothing. -/
def knownDevice? (o : Opening) : Action TransactError (Linked σ) (Option KnownDevice) := do
  match o.response.cryptogram with
  | none => return none
  | some cryptogram =>
    let reader := (← Action.own).reader
    match o.matching? reader.configuration reader.knownDevices cryptogram with
    | some device =>
      Action.debug "fast transaction matched a known device"
      return some device
    | none =>
      Action.debug "no known device matches the cryptogram, falling back to AUTH1"
      return none

/-- Ends a fast transaction; the endpoint's answer does not change the result. -/
def finishFast (o : Opening) (device : KnownDevice) : Action TransactError (Linked σ) Verdict := do
  let response ← sendControlFlow link .success
  if response.status ≠ .known .ok then
    Action.warn ("CONTROL_FLOW answered " ++ Hex.prefixed16 response.status.value)
  return .authorized o.command.transactionIdentifier device.publicKey

/-! ### The standard path -/

def Opening.handshake (o : Opening) (configuration : Configuration) : Handshake where
  readerIdentifier := configuration.identifier
  readerEphemeral := o.command.readerEphemeral
  endpointEphemeral := o.response.endpointEphemeral
  transactionIdentifier := o.command.transactionIdentifier

/-- What the keys of the handshake depend on. -/
def Opening.derivation (o : Opening) (configuration : Configuration) : StandardDerivation where
  handshake := o.handshake configuration
  flag := o.command.flag
  version := o.command.version
  supportedVersions := o.supportedVersions

/-- The secret that the handshake's ephemeral keys agree on. -/
def Opening.secret (o : Opening) : Octets 32 :=
  o.readerEphemeral.privateKey.agree o.response.endpointEphemeral o.command.transactionIdentifier.toList

/-- The public key that an answer to AUTH1 proves, or the text to log when it proves none. -/
def Opening.provenKey (o : Opening) (configuration : Configuration) (response : Auth1Response) :
    Except String PublicKey := do
  let channel := Channel.new (some ((o.derivation configuration).channelKeys o.secret))
  let message ← (response.decrypt channel).mapError fun e =>
    "could not decrypt AUTH1 response: " ++ e.message
  match message.endpointKey with
  | none => throw "AUTH1 response carries no endpoint public key"
  | some key =>
    let signed := (o.handshake configuration).authenticationData .endpoint
    if Signature.verify key signed message.endpointSignature.toList then return key
    else throw "invalid endpoint signature"

/-- Signs the handshake and checks the endpoint's answer. A device that proves its key is known from
then on. -/
def finishStandard (o : Opening) : Action TransactError (Linked σ) Verdict := do
  let configuration := (← Action.own).reader.configuration
  let signed := (o.handshake configuration).authenticationData .reader
  let signature ← Action.ofExcept
    ((Signature.make configuration.keyPair.privateKey signed).mapError TransactError.protocol)
  let response := Auth1Response.ofResponse (← exchange link (Auth1Command.ofSignature signature).encode)
  if ¬ response.IsComplete then
    Action.warn ("AUTH1 answered " ++ Hex.prefixed16 response.status.value)
    return .unauthorized
  match o.provenKey configuration response with
  | .error complaint =>
    Action.error complaint
    return .unauthorized
  | .ok key =>
    Action.debug ("endpoint " ++ Hex.encode key.encode.toList ++ " authenticated")
    -- only now is the list touched: everything above may still refuse the device
    let device : KnownDevice := ⟨key, (o.derivation configuration).persistentKey o.secret⟩
    Action.update fun l =>
      { l with reader := { l.reader with knownDevices := l.reader.knownDevices.add device } }
    return .authorized o.command.transactionIdentifier key

/-! ### Transactions -/

/-- Runs one transaction. -/
def transact (code : TransactionCode) : Action TransactError (Linked σ) Verdict := do
  match ← sendSelect link with
  | none => return .unauthorized
  | some select =>
    let configuration := (← Action.own).reader.configuration
    match configuration.versions.negotiate? select.supportedVersions with
    | none => throw (.protocol .noSupportedVersion)
    | some version =>
      Action.debug ("negotiated protocol version " ++ Hex.prefixed16 version)
      let opening ← sendAuth0 link code version select.supportedVersions
      match ← knownDevice? opening with
      | some device => finishFast link opening device
      | none => finishStandard link opening

end

end Reader

end TapAccess
