import TapAccess.Channel
import TapAccess.Proofs.Crypto.Gcm
import TapAccess.Proofs.Except

/-!
# Both sides of a channel stay in step

One counter serves both directions: whoever sends, the sender seals under the number that its channel has come to
and the receiver opens under its own. `encrypt_eq_ok_iff` says when a message is sealed and `decrypt_of_encrypt`
that an equal channel opens it and comes to the same number. So one message keeps equal channels equal
(`Peers.deliver_eq`), and from this a conversation of any length does, past the largest nonce and past the largest
number (`Peers.converse_inStep`).
-/

namespace TapAccess

namespace Channel

variable {c c' : Channel} {message sealed : Bytes}

/-- Both directions ask the cipher under the device's key and the nonce of the counter, and move on by one when it
answers. -/
theorem ask_eq_ok_iff (answer? : ChannelKeys → Option Bytes) {refusal : ProtocolError} {answer : Bytes} :
    (do
      let keys ← c.keys
      match answer? keys with
      | some answer => return (c.advanced, answer)
      | none => throw refusal : Except ProtocolError (Channel × Bytes)) = .ok (c', answer) ↔
      ∃ keys, c.keys? = some keys ∧ answer? keys = some answer ∧ c' = c.advanced := by
  obtain ⟨counter, keys?⟩ := c
  cases keys? with
  | none =>
    constructor
    · intro hrun
      cases hrun
    · rintro ⟨keys, hkeys, -⟩
      cases hkeys
  | some keys =>
    have hkeys : Channel.keys ⟨counter, some keys⟩ = .ok keys := rfl
    cases hanswer : answer? keys with
    | none => simp [hkeys, hanswer]
    | some answer' => simp [hkeys, hanswer, and_comm, eq_comm]

theorem encrypt_eq_ok_iff :
    c.encrypt message = .ok (c', sealed) ↔ ∃ keys, c.keys? = some keys ∧
      Gcm.seal? keys.exchangeDevice (nonce c.counter) message = some sealed ∧ c' = c.advanced :=
  ask_eq_ok_iff fun keys => Gcm.seal? keys.exchangeDevice (nonce c.counter) message

theorem decrypt_eq_ok_iff :
    c.decrypt sealed = .ok (c', message) ↔ ∃ keys, c.keys? = some keys ∧
      Gcm.unseal? keys.exchangeDevice (nonce c.counter) sealed = some message ∧ c' = c.advanced :=
  ask_eq_ok_iff fun keys => Gcm.unseal? keys.exchangeDevice (nonce c.counter) sealed

theorem decrypt_of_encrypt (hencrypt : c.encrypt message = .ok (c', sealed)) :
    c.decrypt sealed = .ok (c', message) := by
  obtain ⟨keys, hkeys, hseal, rfl⟩ := encrypt_eq_ok_iff.mp hencrypt
  exact decrypt_eq_ok_iff.mpr ⟨keys, hkeys, Gcm.unseal?_of_seal? hseal, rfl⟩

theorem exists_encrypt (hkeys : c.keys?.isSome) (hfits : message.length ≤ Gcm.maxLength) :
    ∃ sealed, c.encrypt message = .ok (c.advanced, sealed) := by
  obtain ⟨keys, hkeys⟩ := Option.isSome_iff_exists.mp hkeys
  obtain ⟨sealed, hsealed⟩ := Gcm.exists_seal? keys.exchangeDevice (nonce c.counter) hfits
  exact ⟨sealed, encrypt_eq_ok_iff.mpr ⟨keys, hkeys, hsealed, rfl⟩⟩

theorem encrypt_of_noKeys (hnone : c.keys? = none) (message : Bytes) :
    c.encrypt message = .error .missingChannelKeys := by
  rw [encrypt, keys, hnone]
  rfl

theorem decrypt_of_noKeys (hnone : c.keys? = none) (sealed : Bytes) :
    c.decrypt sealed = .error .missingChannelKeys := by
  rw [decrypt, keys, hnone]
  rfl

theorem toNat_counter_advanced (c : Channel) : c.advanced.counter.toNat = (c.counter.toNat + 1) % 2 ^ 32 :=
  UInt32.toNat_add c.counter 1

end Channel

/-! ### Conversations -/

/-- One of the two sides of a channel. -/
inductive Side where
  | reader | device
  deriving DecidableEq, Repr

/-- The channel as each side has it. -/
structure Peers where
  reader : Channel
  device : Channel
  deriving DecidableEq

/-- What one message comes to: the bytes that the receiver reads, and both channels afterwards. -/
structure Delivery where
  received : Bytes
  after : Peers

namespace Peers

/-- One side seals a message, the other opens what it is sent, and each goes on with the channel it gets. -/
def deliver (p : Peers) (message : Bytes) : Side → Except ProtocolError Delivery
  | .reader => do
    let (reader, sealed) ← p.reader.encrypt message
    let (device, received) ← p.device.decrypt sealed
    return ⟨received, reader, device⟩
  | .device => do
    let (device, sealed) ← p.device.encrypt message
    let (reader, received) ← p.reader.decrypt sealed
    return ⟨received, reader, device⟩

/-- Messages one after the other, each with the side that sends it. -/
def converse (p : Peers) : List (Side × Bytes) → Except ProtocolError (List Delivery)
  | [] => .ok []
  | (sender, message) :: messages => do
    let delivery ← p.deliver message sender
    let deliveries ← delivery.after.converse messages
    return delivery :: deliveries

/-- Both sides have the same channel: that of the start, with `count` messages counted since. -/
structure InStep (start : Channel) (count : Nat) (p : Peers) : Prop where
  same : p.reader = p.device
  keys : p.reader.keys? = start.keys?
  counter : p.reader.counter.toNat = (start.counter.toNat + count) % 2 ^ 32

variable {c : Channel}

theorem InStep.of_advanced {count : Nat} {p : Peers} (hstep : InStep c.advanced count p) :
    InStep c (count + 1) p where
  same := hstep.same
  keys := hstep.keys
  counter := by
    have hcounter := hstep.counter
    rw [Channel.toNat_counter_advanced] at hcounter
    omega

theorem inStep_advanced (c : Channel) : InStep c 1 ⟨c.advanced, c.advanced⟩ :=
  ⟨rfl, rfl, c.toNat_counter_advanced⟩

theorem deliver_eq (hkeys : c.keys?.isSome) {message : Bytes} (hfits : message.length ≤ Gcm.maxLength)
    (sender : Side) : deliver ⟨c, c⟩ message sender = .ok ⟨message, c.advanced, c.advanced⟩ := by
  obtain ⟨sealed, hencrypt⟩ := Channel.exists_encrypt hkeys hfits
  have hdecrypt := Channel.decrypt_of_encrypt hencrypt
  cases sender <;> simp [deliver, hencrypt, hdecrypt]

theorem converse_eq (hkeys : c.keys?.isSome) {messages : List (Side × Bytes)}
    (hfits : ∀ m ∈ messages, m.2.length ≤ Gcm.maxLength) :
    ∃ deliveries, converse ⟨c, c⟩ messages = .ok deliveries ∧
      deliveries.map (·.received) = messages.map (·.2) ∧
      ∀ (n : Nat) (hn : n < deliveries.length), InStep c (n + 1) deliveries[n].after := by
  -- by induction on the messages that are left, from whatever channel both sides have come to
  induction messages generalizing c with
  | nil => exact ⟨[], rfl, rfl, fun n hn => nomatch hn⟩
  | cons m messages ih =>
    obtain ⟨sender, message⟩ := m
    rw [List.forall_mem_cons] at hfits
    obtain ⟨deliveries, hrest, hreceived, hafter⟩ := ih (c := c.advanced) hkeys hfits.2
    refine ⟨⟨message, c.advanced, c.advanced⟩ :: deliveries, ?_, ?_, ?_⟩
    · simp [converse, deliver_eq hkeys hfits.1, hrest]
    · rw [List.map_cons, List.map_cons, hreceived]
    · intro n hn
      cases n with
      | zero => exact inStep_advanced c
      | succ n => exact (hafter n (Nat.lt_of_succ_lt_succ hn)).of_advanced

/-- From equal channels with keys, every message of a conversation is opened by the other side and read as it was
sent, whoever sends it; after each message both sides have the same channel, with the same keys and as many
messages more on its counter, modulo its width. Without keys nothing is sealed and nothing is opened. -/
theorem converse_inStep :
    (∀ (p : Peers) (messages : List (Side × Bytes)), p.reader = p.device → p.reader.keys?.isSome →
      (∀ m ∈ messages, m.2.length ≤ Gcm.maxLength) →
      ∃ deliveries, p.converse messages = .ok deliveries ∧
        deliveries.map (·.received) = messages.map (·.2) ∧
        ∀ (n : Nat) (hn : n < deliveries.length), InStep p.reader (n + 1) deliveries[n].after) ∧
    ∀ (c : Channel) (bytes : Bytes), c.keys? = none →
      c.encrypt bytes = .error .missingChannelKeys ∧ c.decrypt bytes = .error .missingChannelKeys := by
  constructor
  · rintro ⟨c, c'⟩ messages hsame hkeys hfits
    cases hsame
    exact converse_eq hkeys hfits
  · exact fun c bytes hnone => ⟨c.encrypt_of_noKeys hnone bytes, c.decrypt_of_noKeys hnone bytes⟩

/-- A channel with keys that has come to its largest number. -/
def lastNumbered : Channel := ⟨0xFFFFFFFF, some (.ofVolatileBlock (.replicate 160 0x22))⟩

/-- Two messages, one from each side, across the largest number of a channel; and a channel that has no keys. -/
theorem converse_lastNumbered :
    (∃ deliveries, converse ⟨lastNumbered, lastNumbered⟩ [(.device, [0x01]), (.reader, [])] = .ok deliveries ∧
      deliveries.map (·.received) = [[0x01], []] ∧
      ∀ (n : Nat) (hn : n < deliveries.length), InStep lastNumbered (n + 1) deliveries[n].after) ∧
    (Channel.new none).encrypt [0x01] = .error .missingChannelKeys ∧
    (Channel.new none).decrypt [0x01] = .error .missingChannelKeys :=
  ⟨converse_inStep.1 ⟨lastNumbered, lastNumbered⟩ [(.device, [0x01]), (.reader, [])] rfl rfl (by decide),
    converse_inStep.2 (Channel.new none) [0x01] rfl⟩

end Peers

end TapAccess
