import TapAccess.Action
import TapAccess.Apdu.Command
import TapAccess.Apdu.Instruction
import TapAccess.Apdu.Response
import TapAccess.Apdu.Status
import TapAccess.Blank
import TapAccess.Bytes
import TapAccess.Channel
import TapAccess.CommandLine
import TapAccess.CredentialStore
import TapAccess.Crypto.Aes
import TapAccess.Crypto.Curve
import TapAccess.Crypto.Gcm
import TapAccess.Crypto.Hmac
import TapAccess.Crypto.Keys
import TapAccess.Crypto.Reported
import TapAccess.Crypto.Sha256
import TapAccess.Crypto.Signature
import TapAccess.Endpoint
import TapAccess.Error
import TapAccess.Hex
import TapAccess.Identifier
import TapAccess.Json.Read
import TapAccess.Json.Value
import TapAccess.KeySchedule
import TapAccess.Keystore
import TapAccess.Main
import TapAccess.Message.Auth0
import TapAccess.Message.Auth1
import TapAccess.Message.ControlFlow
import TapAccess.Message.Fields
import TapAccess.Message.Request
import TapAccess.Message.Select
import TapAccess.Phase
import TapAccess.Proofs.Action
import TapAccess.Proofs.Apdu.Concise
import TapAccess.Proofs.Apdu.Forms
import TapAccess.Proofs.Apdu.Frames
import TapAccess.Proofs.Apdu.Range
import TapAccess.Proofs.Bytes
import TapAccess.Proofs.Channel
import TapAccess.Proofs.Choice
import TapAccess.Proofs.CommandLine
import TapAccess.Proofs.CredentialStore
import TapAccess.Proofs.Crypto.Gcm
import TapAccess.Proofs.Crypto.Group
import TapAccess.Proofs.Crypto.KeyPairs
import TapAccess.Proofs.Crypto.Modular
import TapAccess.Proofs.Endpoint.Acceptance
import TapAccess.Proofs.Endpoint.Atomicity
import TapAccess.Proofs.Endpoint.Binding
import TapAccess.Proofs.Endpoint.Choice
import TapAccess.Proofs.Endpoint.Correspondence
import TapAccess.Proofs.Endpoint.Countersignature
import TapAccess.Proofs.Endpoint.History
import TapAccess.Proofs.Endpoint.Indistinguishable
import TapAccess.Proofs.Endpoint.Negotiation
import TapAccess.Proofs.Endpoint.Onlooker
import TapAccess.Proofs.Endpoint.Order
import TapAccess.Proofs.Endpoint.Reply
import TapAccess.Proofs.Endpoint.Sessions
import TapAccess.Proofs.Endpoint.SharedKeys
import TapAccess.Proofs.Endpoint.StatusWords
import TapAccess.Proofs.Endpoint.Transcript
import TapAccess.Proofs.Endpoint.Turns
import TapAccess.Proofs.Except
import TapAccess.Proofs.Hex
import TapAccess.Proofs.Holdings
import TapAccess.Proofs.Json.Pretty
import TapAccess.Proofs.KeyBlocks
import TapAccess.Proofs.KeySchedule
import TapAccess.Proofs.Log
import TapAccess.Proofs.Meeting.Completeness
import TapAccess.Proofs.Meeting.Sequence
import TapAccess.Proofs.Meeting.Undisturbed
import TapAccess.Proofs.Message.Answers
import TapAccess.Proofs.Message.Commands
import TapAccess.Proofs.Message.DeclaredLengths
import TapAccess.Proofs.Message.FirstObjects
import TapAccess.Proofs.Message.Refusals
import TapAccess.Proofs.Message.Requests
import TapAccess.Proofs.Message.Responses
import TapAccess.Proofs.Nonces
import TapAccess.Proofs.Reader.Authorization
import TapAccess.Proofs.Reader.Configuration
import TapAccess.Proofs.Reader.Course
import TapAccess.Proofs.Reader.Exchange
import TapAccess.Proofs.Reader.Unasked
import TapAccess.Proofs.StoreHistory
import TapAccess.Proofs.Tlv.Accepted
import TapAccess.Proofs.Tlv.Concatenation
import TapAccess.Proofs.Tlv.FirstObjects
import TapAccess.Proofs.Tlv.Headers
import TapAccess.Proofs.Tlv.Lookup
import TapAccess.Proofs.Tlv.Runs
import TapAccess.Proofs.Tlv.Sliced
import TapAccess.Proofs.TransactionCode
import TapAccess.Proofs.Versions
import TapAccess.Random
import TapAccess.Reader.Configuration
import TapAccess.Reader.KnownDevice
import TapAccess.Reader.Transact
import TapAccess.Tlv.Decode
import TapAccess.Tlv.Lookup
import TapAccess.Tlv.Object
import TapAccess.Tlv.Tag
import TapAccess.Transaction
import TapAccess.TransactionCode
import TapAccess.Versions
