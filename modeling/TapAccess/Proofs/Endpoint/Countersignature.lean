import TapAccess.Proofs.Channel
import TapAccess.Proofs.Endpoint.Reply
import TapAccess.Proofs.Message.Responses

/-!
# The endpoint's answer to AUTH1

The answer is the endpoint's signature of the handshake, sealed with the keys that both sides derive under the
number that the session's channel has come to. `countersigned_eq_ok_iff` takes such an answer apart.
`exists_countersigned` makes one from a signature: what is sealed has always the same length, and there is room
for it.
-/

namespace TapAccess

theorem Auth1Response.encrypt_eq_ok_iff {channel channel' : Channel} {message : Auth1Plaintext}
    {answered : Auth1Response} : Auth1Response.encrypt channel message = .ok (channel', answered) ↔
      ∃ sealed, channel.encrypt message.encode = .ok (channel', sealed) ∧ answered = ⟨.known .ok, sealed⟩ := by
  unfold Auth1Response.encrypt
  cases channel.encrypt message.encode with
  | error cause =>
    constructor
    · intro hrun
      cases hrun
    · rintro ⟨_, hrun, -⟩
      cases hrun
  | ok both =>
    constructor
    · intro hrun
      cases hrun
      exact ⟨both.2, rfl, rfl⟩
    · rintro ⟨_, hrun, rfl⟩
      cases hrun
      rfl

namespace Endpoint

variable {session : Session} {keys : ChannelKeys}

theorem countersigned_eq_ok_iff {channel : Channel} {answered : Auth1Response} :
    countersigned session keys = .ok (channel, answered) ↔ ∃ signature sealed,
      Signature.make session.credential.keyPair.privateKey
        (session.handshake.authenticationData .endpoint) = .ok signature ∧
      Gcm.seal? keys.exchangeDevice (Channel.nonce session.channel.counter)
        (Auth1Plaintext.encode ⟨signature, some session.credential.publicKey, none⟩) = some sealed ∧
      channel = (session.channel.withKeys keys).advanced ∧ answered = ⟨.known .ok, sealed⟩ := by
  unfold countersigned
  cases Signature.make session.credential.keyPair.privateKey
      (session.handshake.authenticationData .endpoint) with
  | error cause =>
    constructor
    · intro hsigned
      cases hsigned
    · rintro ⟨signature, sealed, hmade, -⟩
      cases hmade
  | ok signature =>
    show Auth1Response.encrypt (session.channel.withKeys keys) _ = _ ↔ _
    rw [Auth1Response.encrypt_eq_ok_iff]
    constructor
    · rintro ⟨sealed, hencrypt, rfl⟩
      obtain ⟨_, hkeys, hseal, rfl⟩ := Channel.encrypt_eq_ok_iff.mp hencrypt
      cases hkeys
      exact ⟨signature, sealed, rfl, hseal, rfl, rfl⟩
    · rintro ⟨_, sealed, hmade, hseal, rfl, rfl⟩
      cases hmade
      exact ⟨sealed, Channel.encrypt_eq_ok_iff.mpr ⟨keys, rfl, hseal, rfl⟩, rfl⟩

theorem exists_countersigned {signature : Signature} (keys : ChannelKeys)
    (hmade : Signature.make session.credential.keyPair.privateKey
      (session.handshake.authenticationData .endpoint) = .ok signature) :
    ∃ channel sealed, countersigned session keys = .ok (channel, ⟨.known .ok, sealed⟩) ∧
      Gcm.seal? keys.exchangeDevice (Channel.nonce session.channel.counter)
        (Auth1Plaintext.encode ⟨signature, some session.credential.publicKey, none⟩) = some sealed := by
  have hshort : (Auth1Plaintext.encode ⟨signature, some session.credential.publicKey, none⟩).length
      ≤ Gcm.maxLength := by
    rw [Auth1Plaintext.length_encode]
    decide
  obtain ⟨sealed, hsealed⟩ := Gcm.exists_seal? keys.exchangeDevice (Channel.nonce session.channel.counter) hshort
  exact ⟨_, sealed, countersigned_eq_ok_iff.mpr ⟨signature, sealed, hmade, hsealed, rfl, rfl⟩, hsealed⟩

theorem status_of_countersigned {channel : Channel} {answered : Auth1Response}
    (hsigned : countersigned session keys = .ok (channel, answered)) : answered.status = .known .ok := by
  obtain ⟨_, _, -, -, -, rfl⟩ := countersigned_eq_ok_iff.mp hsigned
  rfl

theorem length_of_countersigned {channel : Channel} {answered : Auth1Response}
    (hsigned : countersigned session keys = .ok (channel, answered)) : answered.ciphertext.length = 152 := by
  obtain ⟨signature, sealed, -, hseal, -, rfl⟩ := countersigned_eq_ok_iff.mp hsigned
  show sealed.length = 152
  rw [Gcm.length_of_seal? hseal, Auth1Plaintext.length_encode]

end Endpoint

end TapAccess
