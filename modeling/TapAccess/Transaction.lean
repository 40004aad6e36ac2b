import TapAccess.CredentialStore
import TapAccess.KeySchedule

/-!
# Transactions

The endpoint's side of one handshake is a phase, and from AUTH0 on a session with everything that the
rest of the handshake needs. A move that is not allowed changes nothing.
-/

namespace TapAccess

/-- What the endpoint remembers of a handshake. -/
structure Session where
  transactionIdentifier : Identifier
  readerIdentifier : ReaderIdentifier
  credential : Credential
  readerEphemeral : PublicKey
  endpointEphemeral : KeyPair
  flag : Flag
  channel : Channel
  version : Version
  deriving DecidableEq

namespace Session

/-- The part of a session that the reader knows too. -/
def handshake (s : Session) : Handshake where
  readerIdentifier := s.readerIdentifier
  readerEphemeral := s.readerEphemeral
  endpointEphemeral := s.endpointEphemeral.publicKey
  transactionIdentifier := s.transactionIdentifier

/-- The secret that the session's ephemeral keys agree on. -/
def secret (s : Session) : Octets 32 :=
  s.endpointEphemeral.privateKey.agree s.readerEphemeral s.transactionIdentifier.toList

/-- What the session's keys depend on, for an endpoint that offered the given versions. -/
def derivation (s : Session) (supportedVersions : Bytes) : StandardDerivation where
  handshake := s.handshake
  flag := s.flag
  version := s.version
  supportedVersions := supportedVersions

end Session

/-- The endpoint's side of one handshake. -/
inductive Transaction where
  | initial
  | selectDone
  | auth0FastDone (session : Session)
  | auth0StandardDone (session : Session)
  | auth1Done (session : Session)
  deriving DecidableEq

namespace Transaction

def phase : Transaction → Phase
  | initial => .initial
  | selectDone => .selectDone
  | auth0FastDone _ => .auth0FastDone
  | auth0StandardDone _ => .auth0StandardDone
  | auth1Done _ => .auth1Done

def session? : Transaction → Option Session
  | initial | selectDone => none
  | auth0FastDone session | auth0StandardDone session | auth1Done session => some session

/-- Moves on when that is allowed. -/
def moveTo (target : Transaction) : Action ProtocolError Transaction Unit := do
  let source ← Action.own
  if Phase.Legal source.phase target.phase then
    Action.debug ("transaction state " ++ source.phase.name ++ " -> " ++ target.phase.name)
    Action.update fun _ => target
  else
    Action.warn ("rejected transition from " ++ source.phase.name ++ " to " ++ target.phase.name)
    throw (.illegalTransition source.phase target.phase)

/-- Gives the handshake up, whatever its phase. -/
def stop {ε : Type} : Action ε Transaction Unit := do
  let source ← Action.own
  Action.debug ("transaction stopped in state " ++ source.phase.name)
  Action.update fun _ => initial

end Transaction

end TapAccess
