import Mathlib.Data.List.Forall2
import TapAccess.Proofs.Action
import TapAccess.Proofs.Channel

/-!
# The nonces of a channel

A channel takes its nonces from its counter, of which only the lowest byte is used, and it keeps the counter when its
keys are replaced. So along any chain of operations the nonces are those of consecutive numbers
(`Channel.nonces_of_chain`), whatever the keys are and whichever side sends, and they come round after 256 messages and
not before (`Channel.nonces_come_round`). The counter itself comes round only at a multiple of this, which does not
show.
-/

namespace TapAccess

/-- The nonce with the given number, of which the lowest byte counts. -/
def nonceNumbered (number : Nat) : Octets 12 :=
  ⟨List.replicate 7 0x00 ++ [0x01, 0x00, 0x00, 0x00, UInt8.ofNat (number % 256)], rfl⟩

theorem nonceNumbered_eq_iff {i j : Nat} : nonceNumbered i = nonceNumbered j ↔ i % 256 = j % 256 := by
  constructor
  · intro hsame
    simp only [nonceNumbered, Octets.mk.injEq, List.append_cancel_left_eq, List.cons.injEq, true_and, and_true] at hsame
    have hvalue := congrArg UInt8.toNat hsame
    simp only [UInt8.toNat_ofNat'] at hvalue
    omega
  · intro hsame
    rw [nonceNumbered, nonceNumbered]
    simp only [hsame]

namespace Channel

theorem nonce_eq (counter : UInt32) : nonce counter = nonceNumbered counter.toNat := by
  have hbyte : counter.toUInt8 = UInt8.ofNat (counter.toNat % 256) := by
    rw [← UInt8.toNat_inj, UInt32.toNat_toUInt8, UInt8.toNat_ofNat']
    omega
  apply Octets.ext
  simp only [nonce, nonceNumbered, hbyte]
  rfl

/-! ### Chains of operations -/

/-- What is done with a channel: a message is sealed, a message is opened, or the keys are replaced. -/
inductive Operation where
  | encrypt (message : Bytes)
  | decrypt (sealed : Bytes)
  | replaceKeys (keys : ChannelKeys)
  deriving DecidableEq

/-- The operation calls the cipher. -/
def Operation.isCipher : Operation → Bool
  | encrypt _ | decrypt _ => true
  | replaceKeys _ => false

/-- A call of the cipher: under which key and which nonce, and the message with what it is sealed as. -/
structure CipherCall where
  key : Octets 32
  nonce : Octets 12
  message : Bytes
  sealed : Bytes
  deriving DecidableEq

/-- The call is the one that the operation makes, and the cipher gives what the call says. -/
def CipherCall.IsOf (call : CipherCall) : Operation → Prop
  | .encrypt message => call.message = message ∧ Gcm.seal? call.key call.nonce message = some call.sealed
  | .decrypt sealed => call.sealed = sealed ∧ Gcm.unseal? call.key call.nonce sealed = some call.message
  | .replaceKeys _ => False

/-- The channel after an operation, with the call of the cipher if there was one. -/
def perform (c : Channel) : Operation → Except ProtocolError (Channel × Option CipherCall)
  | .encrypt message => do
    let keys ← c.keys
    let (after, sealed) ← c.encrypt message
    return (after, some ⟨keys.exchangeDevice, nonce c.counter, message, sealed⟩)
  | .decrypt sealed => do
    let keys ← c.keys
    let (after, message) ← c.decrypt sealed
    return (after, some ⟨keys.exchangeDevice, nonce c.counter, message, sealed⟩)
  | .replaceKeys keys => return (c.withKeys keys, none)

/-- Operations one after the other, each on the channel that the one before it leaves. The first to fail ends it. -/
def chain (c : Channel) : List Operation → Except ProtocolError (Channel × List CipherCall)
  | [] => .ok (c, [])
  | operation :: operations => do
    let (after, call?) ← c.perform operation
    let (last, calls) ← after.chain operations
    return (last, call?.toList ++ calls)

variable {c after last : Channel} {operation : Operation} {operations : List Operation} {call? : Option CipherCall}
  {calls : List CipherCall}

theorem keys_of_keys? {keys : ChannelKeys} (hkeys : c.keys? = some keys) : c.keys = .ok keys := by
  rw [Channel.keys, hkeys]

/-- What an operation that succeeds can do: replace the keys and keep the counter, or call the cipher under the nonce of
the counter and advance it. -/
theorem perform_cases (hperform : c.perform operation = .ok (after, call?)) :
    (operation.isCipher = false ∧ call? = none ∧ after.counter = c.counter) ∨
      ∃ call, operation.isCipher = true ∧ call? = some call ∧ call.IsOf operation ∧ call.nonce = nonce c.counter ∧
        after = c.advanced := by
  cases operation with
  | encrypt message =>
    right
    obtain ⟨keys, hkeys, hrun⟩ := Except.bind_eq_ok_iff.mp hperform
    obtain ⟨⟨after', sealed⟩, hencrypt, hresult⟩ := Except.bind_eq_ok_iff.mp hrun
    obtain ⟨keys', hkeys', hseal, rfl⟩ := encrypt_eq_ok_iff.mp hencrypt
    rw [keys_of_keys? hkeys', Except.ok.injEq] at hkeys
    subst hkeys
    cases hresult
    exact ⟨_, rfl, rfl, ⟨rfl, hseal⟩, rfl, rfl⟩
  | decrypt sealed =>
    right
    obtain ⟨keys, hkeys, hrun⟩ := Except.bind_eq_ok_iff.mp hperform
    obtain ⟨⟨after', message⟩, hdecrypt, hresult⟩ := Except.bind_eq_ok_iff.mp hrun
    obtain ⟨keys', hkeys', hunseal, rfl⟩ := decrypt_eq_ok_iff.mp hdecrypt
    rw [keys_of_keys? hkeys', Except.ok.injEq] at hkeys
    subst hkeys
    cases hresult
    exact ⟨_, rfl, rfl, ⟨rfl, hunseal⟩, rfl, rfl⟩
  | replaceKeys keys =>
    left
    cases hperform
    exact ⟨rfl, rfl, rfl⟩

theorem chain_cons_eq_ok_iff :
    c.chain (operation :: operations) = .ok (last, calls) ↔ ∃ after call? rest,
      c.perform operation = .ok (after, call?) ∧ after.chain operations = .ok (last, rest) ∧
        calls = call?.toList ++ rest := by
  constructor
  · intro hchain
    obtain ⟨⟨after, call?⟩, hperform, hrun⟩ := Except.bind_eq_ok_iff.mp hchain
    obtain ⟨⟨last', rest⟩, hrest, hresult⟩ := Except.bind_eq_ok_iff.mp hrun
    cases hresult
    exact ⟨after, call?, rest, hperform, hrest, rfl⟩
  · rintro ⟨after, call?, rest, hperform, hrest, rfl⟩
    simp [chain, hperform, hrest]

theorem calls_of_chain (hchain : c.chain operations = .ok (last, calls)) :
    List.Forall₂ CipherCall.IsOf calls (operations.filter Operation.isCipher) := by
  induction operations generalizing c calls with
  | nil =>
    cases hchain
    exact .nil
  | cons operation operations ih =>
    obtain ⟨after, call?, rest, hperform, hrest, rfl⟩ := chain_cons_eq_ok_iff.mp hchain
    rcases perform_cases hperform with ⟨hquiet, rfl, -⟩ | ⟨call, hcipher, rfl, hcall, -, -⟩
    · rw [List.filter_cons_of_neg (by rw [hquiet]; exact Bool.false_ne_true)]
      exact ih hrest
    · rw [List.filter_cons_of_pos hcipher]
      exact .cons hcall (ih hrest)

theorem nonces_of_chain (number : Nat) (hchain : c.chain operations = .ok (last, calls))
    (hnumber : number % 256 = c.counter.toNat % 256) :
    calls.map (·.nonce) = (List.range' number calls.length).map nonceNumbered := by
  -- by induction on the operations; the counter comes round where the numbers do not, but only at a multiple of 256
  induction operations generalizing c calls number with
  | nil =>
    cases hchain
    rfl
  | cons operation operations ih =>
    obtain ⟨after, call?, rest, hperform, hrest, rfl⟩ := chain_cons_eq_ok_iff.mp hchain
    rcases perform_cases hperform with ⟨-, rfl, hcounter⟩ | ⟨call, -, rfl, -, hnonce, rfl⟩
    · exact ih number hrest (hcounter ▸ hnumber)
    · have hnext : (number + 1) % 256 = c.advanced.counter.toNat % 256 := by
        rw [toNat_counter_advanced]
        omega
      have hfirst : call.nonce = nonceNumbered number := by
        rw [hnonce, nonce_eq, nonceNumbered_eq_iff, hnumber]
      simp only [Option.toList_some, List.cons_append, List.nil_append, List.length_cons, List.range'_succ,
        List.map_cons, hfirst, ih (number + 1) hrest hnext]

theorem nonce_getElem {keys : ChannelKeys} (hchain : (new (some keys)).chain operations = .ok (last, calls)) (k : Nat)
    (hk : k < calls.length) : calls[k].nonce = nonceNumbered (k + 1) := by
  have hnonces := nonces_of_chain 1 hchain rfl
  have hget := congrArg (·[k]?) hnonces
  simp only [List.getElem?_map, List.getElem?_eq_getElem hk, Option.map_some] at hget
  rw [List.getElem?_eq_getElem (by rw [List.length_range']; exact hk)] at hget
  rw [List.getElem_range'] at hget
  simpa [Nat.add_comm] using hget

/-- Along every chain of operations on a new channel, its keys replaced or not, the calls of the cipher use the nonces
numbered from one on, of which the lowest byte counts: two calls use the same nonce if and only if their places differ
by a multiple of 256, and no two of 256 calls in a row do. -/
theorem nonces_come_round {keys : ChannelKeys} {operations : List Operation} {last : Channel} {calls : List CipherCall}
    (hchain : (new (some keys)).chain operations = .ok (last, calls)) :
    List.Forall₂ CipherCall.IsOf calls (operations.filter Operation.isCipher) ∧
    (∀ (k : Nat) (hk : k < calls.length), calls[k].nonce.toList =
      List.replicate 7 0x00 ++ [0x01, 0x00, 0x00, 0x00, UInt8.ofNat ((k + 1) % 256)]) ∧
    (∀ (i j : Nat) (hi : i < calls.length) (hj : j < calls.length),
      calls[i].nonce = calls[j].nonce ↔ i % 256 = j % 256) ∧
    ∀ start : Nat, (((calls.drop start).take 256).map (·.nonce)).Nodup := by
  have hsame (i j : Nat) (hi : i < calls.length) (hj : j < calls.length) :
      calls[i].nonce = calls[j].nonce ↔ i % 256 = j % 256 := by
    rw [nonce_getElem hchain, nonce_getElem hchain, nonceNumbered_eq_iff]
    omega
  refine ⟨calls_of_chain hchain, fun k hk => ?_, hsame, fun start => ?_⟩
  · rw [nonce_getElem hchain k hk]
    rfl
  · rw [List.Nodup, List.pairwise_iff_getElem]
    intro i j hi hj hless
    simp only [List.length_map, List.length_take, List.length_drop] at hi hj
    simp only [List.getElem_map, List.getElem_take, List.getElem_drop, ne_eq, hsame]
    omega

/-! ### A chain that comes round -/

theorem chain_append {middle : Channel} {more : List Operation} {rest : List CipherCall}
    (hfirst : c.chain operations = .ok (middle, calls)) (hmore : middle.chain more = .ok (last, rest)) :
    c.chain (operations ++ more) = .ok (last, calls ++ rest) := by
  induction operations generalizing c calls with
  | nil =>
    cases hfirst
    exact hmore
  | cons operation operations ih =>
    obtain ⟨after, call?, calls, hperform, hrest, rfl⟩ := chain_cons_eq_ok_iff.mp hfirst
    rw [List.cons_append, List.append_assoc]
    exact chain_cons_eq_ok_iff.mpr ⟨after, call?, calls ++ rest, hperform, ih hrest, rfl⟩

theorem exists_perform_encrypt (hkeys : c.keys?.isSome) (message : Bytes) (hfits : message.length ≤ Gcm.maxLength) :
    ∃ call, c.perform (.encrypt message) = .ok (c.advanced, some call) := by
  obtain ⟨sealed, hencrypt⟩ := exists_encrypt hkeys hfits
  obtain ⟨keys, hkeys, -⟩ := encrypt_eq_ok_iff.mp hencrypt
  refine ⟨⟨keys.exchangeDevice, nonce c.counter, message, sealed⟩, ?_⟩
  simp [perform, keys_of_keys? hkeys, hencrypt]

theorem exists_perform_decrypt (hkeys : c.keys?.isSome) (message : Bytes) (hfits : message.length ≤ Gcm.maxLength) :
    ∃ sealed call, c.perform (.decrypt sealed) = .ok (c.advanced, some call) := by
  obtain ⟨sealed, hencrypt⟩ := exists_encrypt hkeys hfits
  obtain ⟨keys, hkeys, -⟩ := encrypt_eq_ok_iff.mp hencrypt
  refine ⟨sealed, ⟨keys.exchangeDevice, nonce c.counter, message, sealed⟩, ?_⟩
  simp [perform, keys_of_keys? hkeys, decrypt_of_encrypt hencrypt]

theorem exists_chain_encrypt (hkeys : c.keys?.isSome) (messages : List Bytes)
    (hfits : ∀ m ∈ messages, m.length ≤ Gcm.maxLength) :
    ∃ last calls, c.chain (messages.map .encrypt) = .ok (last, calls) ∧ calls.length = messages.length := by
  induction messages generalizing c with
  | nil => exact ⟨c, [], rfl, rfl⟩
  | cons message messages ih =>
    rw [List.forall_mem_cons] at hfits
    obtain ⟨call, hperform⟩ := exists_perform_encrypt hkeys message hfits.1
    obtain ⟨last, calls, hrest, hlength⟩ := ih (c := c.advanced) hkeys hfits.2
    refine ⟨last, call :: calls, chain_cons_eq_ok_iff.mpr ⟨_, _, calls, hperform, hrest, rfl⟩, ?_⟩
    rw [List.length_cons, List.length_cons, hlength]

/-- Empty messages that use up all nonces. -/
def exhausting : List Operation := (List.replicate 256 []).map .encrypt

/-- After 256 messages the first nonce comes back, although the keys are replaced in between and the next message goes
the other way. -/
theorem nonces_come_round_rekeyed :
    ∃ sealed last calls, (new (some (.ofVolatileBlock (.replicate 160 0x22)))).chain
        (exhausting ++ [.replaceKeys (.ofVolatileBlock (.replicate 160 0x33)), .decrypt sealed]) = .ok (last, calls) ∧
      ∃ (hfirst : 0 < calls.length) (hlast : 256 < calls.length), calls[0].nonce = calls[256].nonce ∧
        calls[256].nonce.toList = [0, 0, 0, 0, 0, 0, 0, 1, 0, 0, 0, 1] ∧
        ((calls.take 256).map (·.nonce)).Nodup := by
  have hempty : ∀ m ∈ List.replicate 256 ([] : Bytes), m.length ≤ Gcm.maxLength := by
    intro m hm
    rw [List.eq_of_mem_replicate hm]
    decide
  obtain ⟨middle, calls, hfirst, hcount⟩ :=
    exists_chain_encrypt (c := new (some (.ofVolatileBlock (.replicate 160 0x22)))) rfl _ hempty
  obtain ⟨sealed, call, hperform⟩ := exists_perform_decrypt
    (c := middle.withKeys (.ofVolatileBlock (.replicate 160 0x33))) rfl [] (by decide)
  have hmore : middle.chain [.replaceKeys (.ofVolatileBlock (.replicate 160 0x33)), .decrypt sealed] =
      .ok (_, [call]) :=
    chain_cons_eq_ok_iff.mpr ⟨_, none, [call], rfl,
      chain_cons_eq_ok_iff.mpr ⟨_, some call, [], hperform, rfl, rfl⟩, rfl⟩
  have hchain := chain_append hfirst hmore
  obtain ⟨-, hnonce, hsame, hrow⟩ := nonces_come_round hchain
  have hlength : (calls ++ [call]).length = 257 := by
    rw [List.length_append, hcount, List.length_replicate]
    rfl
  refine ⟨sealed, _, _, hchain, by omega, by omega, ?_, hnonce 256 (by omega), hrow 0⟩
  exact (hsame 0 256 (by omega) (by omega)).mpr rfl

end Channel

end TapAccess
