import TapAccess.Proofs.Action
import TapAccess.Reader.Transact

/-!
# What a transaction exchanges

Every step of a transaction is an exchange with the link and a look at the answer. `Answers` says that the
link brings an answer back to a command, whatever the link is and whatever it remembers. The lemmas below
take each step of a successful transaction apart into its exchange and what was read in the answer, and show
that no step but the last one of the standard path touches the reader.
-/

namespace TapAccess.Reader

open TapAccess.Action

variable {σ : Type} (link : Link σ)

/-- In host state `h` the link carries `command` and brings `answer` back, which leaves `h'`. -/
def Answers (h : Hosted (Linked σ)) (command answer : Bytes) (h' : Hosted (Linked σ)) : Prop :=
  ∃ t, link command ⟨h.own.link, h.random, h.log ++ [⟨.debug, "sending APDU: " ++ Hex.encode command⟩]⟩
      = .ok answer t ∧
    h' = ⟨{ h.own with link := t.own }, t.random,
      t.log ++ [⟨.debug, "received APDU: " ++ Hex.encode answer⟩]⟩

/-- The link brings back bytes that read as `response`. -/
def Responds (h : Hosted (Linked σ)) (command : Bytes) (response : Response) (h' : Hosted (Linked σ)) :
    Prop :=
  ∃ answer, Answers link h command answer h' ∧ Response.parse answer = .ok response

variable {link} {h h' : Hosted (Linked σ)}

theorem Responds.reader_eq {command : Bytes} {response : Response}
    (hr : Responds link h command response h') : h'.own.reader = h.own.reader := by
  obtain ⟨_, ⟨_, _, rfl⟩, _⟩ := hr
  rfl

/-! ### One exchange -/

theorem carry_eq_ok_iff {command answer : Bytes} :
    ((((link command).within Linked.link fun s (l : Linked σ) => { l with link := s }).mapError
      TransactError.transport) h = .ok answer h') ↔
      ∃ t, link command ⟨h.own.link, h.random, h.log⟩ = .ok answer t ∧
        h' = ⟨{ h.own with link := t.own }, t.random, t.log⟩ := by
  simp only [Action.mapError, within]
  cases link command ⟨h.own.link, h.random, h.log⟩ with
  | ok a t =>
    simp only [EStateM.Result.ok.injEq]
    constructor
    · rintro ⟨rfl, rfl⟩
      exact ⟨t, ⟨rfl, rfl⟩, rfl⟩
    · rintro ⟨_, ⟨rfl, rfl⟩, rfl⟩
      exact ⟨rfl, rfl⟩
  | error e t => simp

theorem carry_eq_error {command : Bytes} {cause : String} {t : Hosted σ}
    (hlink : link command ⟨h.own.link, h.random, h.log⟩ = .error cause t) :
    (((link command).within Linked.link fun s (l : Linked σ) => { l with link := s }).mapError
      TransactError.transport) h = .error (.transport cause) ⟨{ h.own with link := t.own }, t.random, t.log⟩ := by
  simp only [Action.mapError, within, hlink]

theorem exchange_eq_ok_iff {command : Bytes} {response : Response} :
    exchange link command h = .ok response h' ↔ Responds link h command response h' := by
  simp only [exchange, debug, bind_eq_ok_iff, record_eq_ok_iff, carry_eq_ok_iff, ofExcept_eq_ok_iff,
    Except.mapError_eq_ok_iff]
  constructor
  · rintro ⟨_, _, rfl, answer, _, ⟨t, ht, rfl⟩, _, _, rfl, hparse, rfl⟩
    exact ⟨answer, ⟨t, ht, rfl⟩, hparse⟩
  · rintro ⟨answer, ⟨t, ht, rfl⟩, hparse⟩
    exact ⟨(), _, rfl, answer, _, ⟨t, ht, rfl⟩, (), _, rfl, hparse, rfl⟩

variable (link) in
theorem keeps_exchange (command : Bytes) :
    Keeps (fun l : Linked σ => l.reader) (exchange link command) := by
  refine keeps_bind (keeps_record _) fun _ => keeps_bind ?_ fun _ =>
    keeps_bind (keeps_record _) fun _ => keeps_ofExcept _
  intro h
  simp only [outcome, Action.mapError, within]
  cases link command ⟨h.own.link, h.random, h.log⟩ <;> rfl

/-! ### Opening a handshake -/

theorem sendSelect_eq_some_iff {select : SelectResponse} :
    sendSelect link h = .ok (some select) h' ↔
      ∃ response, Responds link h SelectCommand.access.encode response h' ∧ response.IsSuccess ∧
        SelectResponse.ofResponse response = .ok select := by
  simp only [sendSelect, bind_eq_ok_iff, exchange_eq_ok_iff]
  constructor
  · rintro ⟨response, h₁, hresponds, hrest⟩
    by_cases hsuccess : response.IsSuccess
    · rw [if_pos hsuccess] at hrest
      simp only [bind_eq_ok_iff, ofExcept_eq_ok_iff, Except.mapError_eq_ok_iff, pure_eq_ok_iff,
        Option.some.injEq] at hrest
      obtain ⟨_, _, ⟨hparse, rfl⟩, rfl, rfl⟩ := hrest
      exact ⟨response, hresponds, hsuccess, hparse⟩
    · rw [if_neg hsuccess] at hrest
      simp only [bind_eq_ok_iff, pure_eq_ok_iff] at hrest
      obtain ⟨_, _, -, hnone, -⟩ := hrest
      cases hnone
  · rintro ⟨response, hresponds, hsuccess, hparse⟩
    refine ⟨response, h', hresponds, ?_⟩
    rw [if_pos hsuccess]
    simp only [bind_eq_ok_iff, ofExcept_eq_ok_iff, Except.mapError_eq_ok_iff, pure_eq_ok_iff,
      Option.some.injEq]
    exact ⟨select, h', ⟨hparse, rfl⟩, rfl, rfl⟩

variable (link) in
theorem keeps_sendSelect : Keeps (fun l : Linked σ => l.reader) (sendSelect link) := by
  refine keeps_bind (keeps_exchange link _) fun response => ?_
  split
  · exact keeps_bind (keeps_ofExcept _) fun _ => keeps_pure _
  · exact keeps_bind (keeps_record _) fun _ => keeps_pure _

/-- The command that a reader opens a handshake with, given the key and the name that it has drawn. -/
def auth0Command (configuration : Configuration) (code : TransactionCode) (version : Version)
    (readerEphemeral : KeyPair) (transactionIdentifier : Identifier) : Auth0Command where
  fast := configuration.sendFastTransaction
  transactionCode := code
  version := version
  readerEphemeral := readerEphemeral.publicKey
  transactionIdentifier := transactionIdentifier
  readerIdentifier := configuration.identifier

theorem sendAuth0_eq_ok_iff {code : TransactionCode} {version : Version} {offered : Bytes} {o : Opening} :
    sendAuth0 link code version offered h = .ok o h' ↔
      ∃ response, o.supportedVersions = offered ∧ o.readerEphemeral = h.random.keyPair.1 ∧
        o.command = auth0Command h.own.reader.configuration code version o.readerEphemeral
          (h.random.keyPair.2.octets 16).1 ∧
        Responds link { h with random := (h.random.keyPair.2.octets 16).2 } o.command.encode response h' ∧
        response.IsSuccess ∧ Auth0Response.ofResponse response = .ok o.response := by
  simp only [sendAuth0, bind_eq_ok_iff, own_eq_ok_iff, draw_eq_ok_iff, exchange_eq_ok_iff]
  constructor
  · rintro ⟨_, _, ⟨rfl, rfl⟩, _, _, ⟨rfl, rfl⟩, _, _, ⟨rfl, rfl⟩, response, h₁, hresponds, hrest⟩
    by_cases hsuccess : response.IsSuccess
    · rw [if_neg (not_not_intro hsuccess)] at hrest
      simp only [bind_eq_ok_iff, pure_eq_ok_iff, ofExcept_eq_ok_iff, Except.mapError_eq_ok_iff] at hrest
      obtain ⟨_, _, ⟨hparse, rfl⟩, rfl, rfl⟩ := hrest
      exact ⟨response, rfl, rfl, rfl, hresponds, hsuccess, hparse⟩
    · rw [if_pos hsuccess] at hrest
      exact absurd hrest throw_ne_ok
  · rintro ⟨response, rfl, hephemeral, hcommand, hresponds, hsuccess, hparse⟩
    refine ⟨_, _, ⟨rfl, rfl⟩, _, _, ⟨rfl, rfl⟩, _, _, ⟨rfl, rfl⟩, response, h', ?_, ?_⟩
    · rw [hcommand, hephemeral] at hresponds
      exact hresponds
    · rw [if_neg (not_not_intro hsuccess)]
      simp only [bind_eq_ok_iff, pure_eq_ok_iff, ofExcept_eq_ok_iff, Except.mapError_eq_ok_iff]
      refine ⟨o.response, h', ⟨hparse, rfl⟩, ?_, rfl⟩
      obtain ⟨command, readerEphemeral, _, _⟩ := o
      dsimp only at hephemeral hcommand
      rw [hcommand, hephemeral]
      rfl

variable (link) in
theorem keeps_sendAuth0 (code : TransactionCode) (version : Version) (offered : Bytes) :
    Keeps (fun l : Linked σ => l.reader) (sendAuth0 link code version offered) := by
  refine keeps_bind keeps_own fun _ => keeps_bind (keeps_draw _) fun _ => keeps_bind (keeps_draw _)
    fun _ => keeps_bind (keeps_exchange link _) fun response => ?_
  split
  · exact keeps_throw _
  · exact keeps_bind (keeps_ofExcept _) fun _ => keeps_pure _

/-! ### Known devices -/

/-- The first device in the reader's list that the endpoint has shown to be. -/
def Opening.known? (o : Opening) (reader : Reader) : Option KnownDevice :=
  o.response.cryptogram.bind (o.matching? reader.configuration reader.knownDevices)

/-- What the reader logs after it has compared cryptograms; nothing when it was not sent any. -/
def Opening.remark (o : Opening) (reader : Reader) : List Event :=
  match o.response.cryptogram, o.known? reader with
  | none, _ => []
  | some _, some _ => [⟨.debug, "fast transaction matched a known device"⟩]
  | some _, none => [⟨.debug, "no known device matches the cryptogram, falling back to AUTH1"⟩]

theorem knownDevice?_eq (o : Opening) (h : Hosted (Linked σ)) :
    (knownDevice? o : Action TransactError (Linked σ) (Option KnownDevice)) h =
      .ok (o.known? h.own.reader) { h with log := h.log ++ o.remark h.own.reader } := by
  unfold knownDevice? Opening.remark Opening.known?
  cases o.response.cryptogram with
  | none =>
    rw [List.append_nil]
    rfl
  | some cryptogram =>
    dsimp only
    rw [Option.bind_some, bind_ok (own_eq h)]
    cases o.matching? h.own.reader.configuration h.own.reader.knownDevices cryptogram <;> rfl

theorem known?_eq_some_iff {o : Opening} {reader : Reader} {device : KnownDevice} :
    o.known? reader = some device ↔
      ∃ cryptogram earlier later, o.response.cryptogram = some cryptogram ∧
        reader.knownDevices.devices = earlier ++ device :: later ∧
        (∀ d ∈ earlier, (o.fastDerivation reader.configuration d).cryptogram ≠ cryptogram) ∧
        (o.fastDerivation reader.configuration device).cryptogram = cryptogram := by
  rw [Opening.known?, Option.bind_eq_some_iff]
  simp only [Opening.matching?, List.find?_eq_some_iff_append, decide_eq_true_eq]
  constructor
  · rintro ⟨cryptogram, hsent, hmatch, earlier, later, hlist, hearlier⟩
    exact ⟨cryptogram, earlier, later, hsent, hlist, fun d hd => by simpa using hearlier d hd, hmatch⟩
  · rintro ⟨cryptogram, earlier, later, hsent, hlist, hearlier, hmatch⟩
    exact ⟨cryptogram, hsent, hmatch, earlier, later, hlist, fun d hd => by simpa using hearlier d hd⟩

theorem known?_eq_none_iff {o : Opening} {reader : Reader} :
    o.known? reader = none ↔ ∀ cryptogram, o.response.cryptogram = some cryptogram →
      ∀ d ∈ reader.knownDevices.devices,
        (o.fastDerivation reader.configuration d).cryptogram ≠ cryptogram := by
  rw [Opening.known?, Option.bind_eq_none_iff]
  simp only [Opening.matching?, List.find?_eq_none, decide_eq_true_eq, ne_eq]

/-! ### The two ends of a transaction -/

theorem sendControlFlow_eq_ok_iff {c : ControlFlowCommand} {sent : ControlFlowResponse} :
    sendControlFlow link c h = .ok sent h' ↔
      ∃ response, Responds link h c.encode response h' ∧ sent = .ofResponse response := by
  simp only [sendControlFlow, bind_eq_ok_iff, exchange_eq_ok_iff, pure_eq_ok_iff]
  constructor
  · rintro ⟨response, _, hresponds, rfl, rfl⟩
    exact ⟨response, hresponds, rfl⟩
  · rintro ⟨response, hresponds, rfl⟩
    exact ⟨response, h', hresponds, rfl, rfl⟩

theorem finishFast_of_responds (o : Opening) (device : KnownDevice) {response : Response}
    (hresponds : Responds link h ControlFlowCommand.success.encode response h') :
    ∃ log, finishFast link o device h =
      .ok (.authorized o.command.transactionIdentifier device.publicKey) { h' with log := log } := by
  have hsent := sendControlFlow_eq_ok_iff.mpr ⟨response, hresponds, rfl⟩
  unfold finishFast
  rw [bind_ok hsent]
  by_cases hstatus : (ControlFlowResponse.ofResponse response).status ≠ .known .ok
  · rw [if_pos hstatus]
    exact ⟨_, rfl⟩
  · rw [if_neg hstatus]
    exact ⟨_, rfl⟩

theorem finishFast_eq_ok_iff {o : Opening} {device : KnownDevice} {verdict : Verdict} :
    (∃ h', finishFast link o device h = .ok verdict h') ↔
      verdict = .authorized o.command.transactionIdentifier device.publicKey ∧
        ∃ response h₁, Responds link h ControlFlowCommand.success.encode response h₁ := by
  constructor
  · rintro ⟨h', hrun⟩
    obtain ⟨sent, h₁, hsent, -⟩ := bind_eq_ok_iff.mp hrun
    obtain ⟨response, hresponds, -⟩ := sendControlFlow_eq_ok_iff.mp hsent
    refine ⟨?_, response, h₁, hresponds⟩
    obtain ⟨log, hends⟩ := finishFast_of_responds o device hresponds
    rw [hends, EStateM.Result.ok.injEq] at hrun
    exact hrun.1.symm
  · rintro ⟨rfl, response, h₁, hresponds⟩
    obtain ⟨log, hends⟩ := finishFast_of_responds o device hresponds
    exact ⟨_, hends⟩

theorem keeps_finishFast (o : Opening) (device : KnownDevice) :
    Keeps (fun l : Linked σ => l.reader) (finishFast link o device) := by
  refine keeps_bind (keeps_bind (keeps_exchange link _) fun _ => keeps_pure _) fun response => ?_
  split
  · exact keeps_bind (keeps_record _) fun _ => keeps_pure _
  · exact keeps_pure _

end TapAccess.Reader
