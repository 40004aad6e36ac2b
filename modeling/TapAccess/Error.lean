import TapAccess.Apdu.Command
import TapAccess.Apdu.Status
import TapAccess.Phase
import TapAccess.Tlv.Tag

/-!
# Errors of the protocol

Everything that can go wrong while messages are read, written or acted on, with the text that reports it,
the broad kind it belongs to, and the status word with which an endpoint answers. No text contains key
material.
-/

namespace TapAccess

/-- A failure while messages are read, written or acted on. -/
inductive ProtocolError where
  | malformedApdu (reason : String)
  | invalidClass (cla : UInt8)
  | unknownInstruction (byte : UInt8)
  | incorrectParameters (p1 p2 : UInt8)
  | tlv (cause : Tlv.TlvError)
  | unexpectedTlvValue
  | emptyTlvValue (field : String)
  | missingTag (tag : UInt8)
  | invalidLength (field : String) (expected actual : Nat)
  | invalidPublicKey
  | invalidPrivateKey
  | illegalTransition (source target : Phase)
  | outOfOrder (step : String)
  | unsupportedVersion (version : UInt16)
  | noSupportedVersion
  | invalidSignature (signer : String)
  | missingChannelKeys
  | aead (operation : String)
  | keyDerivation (cause : String)
  | signing (cause : String)
  deriving DecidableEq, Repr

namespace ProtocolError

def message : ProtocolError → String
  | malformedApdu reason => "malformed APDU: " ++ reason
  | invalidClass cla => "unsupported class " ++ Hex.byte cla
  | unknownInstruction byte => "unsupported instruction " ++ Hex.byte byte
  | incorrectParameters p1 p2 => "incorrect parameters P1=" ++ Hex.byte p1 ++ " P2=" ++ Hex.byte p2
  | tlv cause => "invalid TLV encoding: " ++ cause.message
  | unexpectedTlvValue => "TLV object has an unexpected value type"
  | emptyTlvValue field => "empty " ++ field ++ " value"
  | missingTag tag => "missing required tag " ++ Hex.byte tag
  | invalidLength field expected actual => s!"expected {expected} bytes for {field}, got {actual}"
  | invalidPublicKey => "invalid public key encoding"
  | invalidPrivateKey => "invalid private key encoding"
  | illegalTransition source target =>
    "cannot transition from " ++ source.name ++ " state to " ++ target.name ++ " state"
  | outOfOrder step => step ++ " must be completed first"
  | unsupportedVersion version => "unsupported protocol version " ++ Hex.prefixed16 version
  | noSupportedVersion => "no mutually supported protocol version"
  | invalidSignature signer => "invalid " ++ signer ++ " signature"
  | missingChannelKeys => "secure channel keys have not been established"
  | aead operation => "AES-GCM " ++ operation ++ " failed"
  | keyDerivation cause => "key derivation failed: " ++ cause
  | signing cause => "signing failed: " ++ cause

inductive Kind where
  | parse
  | sequencing
  | version
  | authentication
  | channel
  | crypto
  deriving DecidableEq, Repr

def Kind.name : Kind → String
  | .parse => "Parse"
  | .sequencing => "Sequencing"
  | .version => "Version"
  | .authentication => "Authentication"
  | .channel => "Channel"
  | .crypto => "Crypto"

def kind : ProtocolError → Kind
  | malformedApdu _ | invalidClass _ | unknownInstruction _ | incorrectParameters _ _ | tlv _
  | unexpectedTlvValue | emptyTlvValue _ | missingTag _ | invalidLength _ _ _ | invalidPublicKey
  | invalidPrivateKey => .parse
  | illegalTransition _ _ | outOfOrder _ => .sequencing
  | unsupportedVersion _ | noSupportedVersion => .version
  | invalidSignature _ => .authentication
  | missingChannelKeys | aead _ => .channel
  | keyDerivation _ | signing _ => .crypto

/-- The status word with which an endpoint answers a command that failed with the error. -/
def responseCode : ProtocolError → ResponseCode
  | malformedApdu _ | invalidLength _ _ _ => .wrongLength
  | invalidClass _ => .classNotSupported
  | unknownInstruction _ => .instructionNotSupported
  | incorrectParameters _ _ => .incorrectP1OrP2
  | tlv _ | unexpectedTlvValue | emptyTlvValue _ | missingTag _ | invalidPublicKey | invalidPrivateKey
  | keyDerivation _ | signing _ => .unspecified
  | illegalTransition _ _ | outOfOrder _ | unsupportedVersion _ | noSupportedVersion
  | invalidSignature _ | missingChannelKeys | aead _ => .genericError

/-- The error of a command that is no frame. -/
def ofFraming (e : Command.FramingError) : ProtocolError := malformedApdu e.reason

end ProtocolError

end TapAccess
