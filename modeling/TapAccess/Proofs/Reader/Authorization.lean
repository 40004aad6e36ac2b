import TapAccess.Proofs.Reader.Exchange

/-!
# When a reader authorizes

`transact_authorized_iff`: against any link, a transaction authorizes exactly when a handshake was opened and
either the fast path or the standard path accepts. `Opens` says what SELECT and AUTH0 have to bring back,
`AcceptsFast` that the cryptogram belongs to a known device and the last answer is a response, and
`AcceptsStandard` that the answer to AUTH1 decrypts to a key and a signature of the handshake under it.
The same theorem says what becomes of the list of known devices: the standard path that accepts adds the
device that proved its key, and no other way through a transaction changes the list.

The proof follows `transact`. Up to AUTH0 it either fails and leaves the reader alone, or opens a handshake
(`transact_cases`), and from there on the two paths are looked at one by one (`finishFast_eq_ok_iff`,
`finishStandard_outcome`).
-/

namespace TapAccess.Reader

open TapAccess.Action

variable {σ : Type} (link : Link σ)

/-! ### What is accepted -/

/-- From host state `h`, SELECT and AUTH0 establish `o` and leave `h'`: both answers succeed and can be read,
the first version on offer that the reader supports goes into AUTH0, and the handshake's key pair and
name are drawn between the two. -/
def Opens (code : TransactionCode) (h : Hosted (Linked σ)) (o : Opening) (h' : Hosted (Linked σ)) : Prop :=
  ∃ selected h₁ select version answered,
    Responds link h SelectCommand.access.encode selected h₁ ∧ selected.IsSuccess ∧
    SelectResponse.ofResponse selected = .ok select ∧
    h.own.reader.configuration.versions.negotiate? select.supportedVersions = some version ∧
    o.supportedVersions = select.supportedVersions ∧
    o.readerEphemeral = h₁.random.keyPair.1 ∧
    o.command = auth0Command h.own.reader.configuration code version o.readerEphemeral
      (h₁.random.keyPair.2.octets 16).1 ∧
    Responds link
      { h₁ with
        random := (h₁.random.keyPair.2.octets 16).2
        log := h₁.log ++ [⟨.debug, "negotiated protocol version " ++ Hex.prefixed16 version⟩] }
      o.command.encode answered h' ∧ answered.IsSuccess ∧
    Auth0Response.ofResponse answered = .ok o.response

/-- The host after the reader has compared cryptograms. -/
def compared (o : Opening) (h : Hosted (Linked σ)) : Hosted (Linked σ) :=
  { h with log := h.log ++ o.remark h.own.reader }

/-- The endpoint sent a cryptogram, the first known device that it belongs to has the public key `key`, and
something of two bytes or more comes back to CONTROL_FLOW. -/
def AcceptsFast (o : Opening) (h : Hosted (Linked σ)) (key : PublicKey) : Prop :=
  ∃ cryptogram earlier device later,
    o.response.cryptogram = some cryptogram ∧
    h.own.reader.knownDevices.devices = earlier ++ device :: later ∧
    (∀ d ∈ earlier, (o.fastDerivation h.own.reader.configuration d).cryptogram ≠ cryptogram) ∧
    (o.fastDerivation h.own.reader.configuration device).cryptogram = cryptogram ∧
    device.publicKey = key ∧
    ∃ response h₁, Responds link (compared o h) ControlFlowCommand.success.encode response h₁

def Unmatched (o : Opening) (reader : Reader) : Prop :=
  ∀ cryptogram, o.response.cryptogram = some cryptogram → ∀ d ∈ reader.knownDevices.devices,
    (o.fastDerivation reader.configuration d).cryptogram ≠ cryptogram

/-- The payload of a response decrypts, as the first message under the handshake's keys, to a public key and
a signature of the handshake that verifies under it. -/
def Proves (o : Opening) (configuration : Configuration) (payload : Bytes) (key : PublicKey) : Prop :=
  ∃ bytes message,
    Gcm.unseal? ((o.derivation configuration).channelKeys o.secret).exchangeDevice (Channel.nonce 1) payload
      = some bytes ∧
    Auth1Plaintext.decode bytes = .ok message ∧ message.endpointKey = some key ∧
    Signature.verify key ((o.handshake configuration).authenticationData .endpoint)
      message.endpointSignature.toList = true

/-- The reader signs the handshake, and the answer to its signature is complete and proves `key`. -/
def Countersigned (o : Opening) (h : Hosted (Linked σ)) (key : PublicKey) : Prop :=
  ∃ signature response h₁,
    Signature.make h.own.reader.configuration.keyPair.privateKey
      ((o.handshake h.own.reader.configuration).authenticationData .reader) = .ok signature ∧
    Responds link h (Auth1Command.ofSignature signature).encode response h₁ ∧
    response.status.sw1 = 0x90 ∧ Proves o h.own.reader.configuration response.payload key

/-- No known device was shown, and the endpoint proves `key` in answer to the reader's signature. -/
def AcceptsStandard (o : Opening) (h : Hosted (Linked σ)) (key : PublicKey) : Prop :=
  Unmatched o h.own.reader ∧ Countersigned link o (compared o h) key

/-- The device that a standard transaction adds to the list. -/
def Opening.device (o : Opening) (configuration : Configuration) (key : PublicKey) : KnownDevice :=
  ⟨key, (o.derivation configuration).persistentKey o.secret⟩

variable {link} {h h' h₁ : Hosted (Linked σ)} {o : Opening} {code : TransactionCode}

theorem compared_own (o : Opening) (h : Hosted (Linked σ)) : (compared o h).own = h.own := rfl

theorem opens_of_responds {selected answered : Response} {select : SelectResponse} {version : Version}
    {own : Linked σ} {random : RandomSource} {log : List Event}
    (hselected : Responds link h SelectCommand.access.encode selected ⟨own, random, log⟩)
    (hsuccess : selected.IsSuccess) (hselect : SelectResponse.ofResponse selected = .ok select)
    (hversion : h.own.reader.configuration.versions.negotiate? select.supportedVersions = some version)
    (hoffered : o.supportedVersions = select.supportedVersions)
    (hephemeral : o.readerEphemeral = random.keyPair.1)
    (hcommand : o.command = auth0Command h.own.reader.configuration code version o.readerEphemeral
      (random.keyPair.2.octets 16).1)
    (hanswered : Responds link ⟨own, (random.keyPair.2.octets 16).2,
      log ++ [⟨.debug, "negotiated protocol version " ++ Hex.prefixed16 version⟩]⟩ o.command.encode answered h')
    (haccepted : answered.IsSuccess) (hresponse : Auth0Response.ofResponse answered = .ok o.response) :
    Opens link code h o h' :=
  ⟨selected, ⟨own, random, log⟩, select, version, answered, hselected, hsuccess, hselect, hversion, hoffered,
    hephemeral, hcommand, hanswered, haccepted, hresponse⟩

theorem Proves.unique {configuration : Configuration} {payload : Bytes} {key₁ key₂ : PublicKey}
    (hproves₁ : Proves o configuration payload key₁) (hproves₂ : Proves o configuration payload key₂) :
    key₁ = key₂ := by
  obtain ⟨_, _, hopen₁, hdecode₁, hkey₁, -⟩ := hproves₁
  obtain ⟨_, _, hopen₂, hdecode₂, hkey₂, -⟩ := hproves₂
  rw [hopen₁, Option.some.injEq] at hopen₂
  subst hopen₂
  rw [hdecode₁, Except.ok.injEq] at hdecode₂
  subst hdecode₂
  rw [hkey₁, Option.some.injEq] at hkey₂
  exact hkey₂

/-! ### The standard path -/

theorem provenKey_eq_ok_iff {configuration : Configuration} {response : Response} {key : PublicKey} :
    o.provenKey configuration (.ofResponse response) = .ok key ↔
      Proves o configuration response.payload key := by
  unfold Opening.provenKey Proves Auth1Response.decrypt Channel.decrypt
  simp only [Channel.keys, Channel.new, Auth1Response.ofResponse, Except.ok_bind]
  cases Gcm.unseal? ((o.derivation configuration).channelKeys o.secret).exchangeDevice (Channel.nonce 1)
      response.payload with
  | none => simp
  | some bytes =>
    simp only [Except.pure_eq_ok, Except.ok_bind, Option.some.injEq, exists_and_left, exists_eq_left']
    cases Auth1Plaintext.decode bytes with
    | error e => simp
    | ok message =>
      simp only [Except.mapError_ok, Except.ok_bind, Except.ok.injEq, exists_eq_left']
      cases message.endpointKey with
      | none => simp
      | some proven =>
        simp only [Option.some.injEq]
        by_cases hverify : Signature.verify proven
            ((o.handshake configuration).authenticationData .endpoint) message.endpointSignature.toList = true
        · rw [if_pos hverify, Except.ok.injEq]
          constructor
          · rintro rfl
            exact ⟨rfl, hverify⟩
          · exact fun hkey => hkey.1
        · rw [if_neg hverify]
          simp only [Except.throw_eq_error, reduceCtorEq, false_iff, not_and]
          rintro rfl
          exact hverify

theorem finishStandard_of_unsigned {e : ProtocolError} (hsign : Signature.make
      h.own.reader.configuration.keyPair.privateKey
      ((o.handshake h.own.reader.configuration).authenticationData .reader) = .error e) :
    finishStandard link o h = .error (.protocol e) h := by
  unfold finishStandard
  rw [bind_ok (own_eq _)]
  refine bind_error ?_
  rw [hsign]
  rfl

variable (link) in
theorem finishStandard_of_signed {signature : Signature} (hsign : Signature.make
      h.own.reader.configuration.keyPair.privateKey
      ((o.handshake h.own.reader.configuration).authenticationData .reader) = .ok signature) :
    finishStandard link o h = (exchange link (Auth1Command.ofSignature signature).encode >>= fun response => do
      if ¬ (Auth1Response.ofResponse response).IsComplete then
        warn ("AUTH1 answered " ++ Hex.prefixed16 response.status.value)
        return .unauthorized
      match o.provenKey h.own.reader.configuration (.ofResponse response) with
      | .error complaint =>
        error complaint
        return .unauthorized
      | .ok key =>
        debug ("endpoint " ++ Hex.encode key.encode.toList ++ " authenticated")
        update fun l => { l with
          reader := { l.reader with
            knownDevices := l.reader.knownDevices.add (o.device h.own.reader.configuration key) } }
        return .authorized o.command.transactionIdentifier key) h := by
  unfold finishStandard
  rw [bind_ok (own_eq _), bind_ok (ofExcept_eq_ok_iff.mpr ⟨by rw [hsign]; rfl, rfl⟩)]
  rfl

theorem finishStandard_of_proves {signature : Signature} {response : Response} {key : PublicKey}
    (hsign : Signature.make h.own.reader.configuration.keyPair.privateKey
      ((o.handshake h.own.reader.configuration).authenticationData .reader) = .ok signature)
    (hresponds : Responds link h (Auth1Command.ofSignature signature).encode response h')
    (hcomplete : response.status.sw1 = 0x90)
    (hproves : Proves o h.own.reader.configuration response.payload key) :
    ∃ log, finishStandard link o h = .ok (.authorized o.command.transactionIdentifier key)
      ⟨{ h'.own with reader := ⟨h.own.reader.configuration,
          h.own.reader.knownDevices.add (o.device h.own.reader.configuration key)⟩ }, h'.random, log⟩ := by
  have hdone : ¬ ¬ (Auth1Response.ofResponse response).IsComplete := not_not_intro hcomplete
  rw [finishStandard_of_signed link hsign, bind_ok (exchange_eq_ok_iff.mpr hresponds), if_neg hdone,
    provenKey_eq_ok_iff.mpr hproves, ← hresponds.reader_eq]
  exact ⟨_, rfl⟩

/-- The link answers one thing to the reader's one signature, so that this answer alone decides. -/
theorem countersigned_iff {signature : Signature} {response : Response} {key : PublicKey}
    (hsign : Signature.make h.own.reader.configuration.keyPair.privateKey
      ((o.handshake h.own.reader.configuration).authenticationData .reader) = .ok signature)
    (hresponds : Responds link h (Auth1Command.ofSignature signature).encode response h') :
    Countersigned link o h key ↔
      response.status.sw1 = 0x90 ∧ Proves o h.own.reader.configuration response.payload key := by
  constructor
  · rintro ⟨signature', response', h₁, hsign', hresponds', hcomplete, hproves⟩
    rw [hsign, Except.ok.injEq] at hsign'
    subst hsign'
    rw [← exchange_eq_ok_iff] at hresponds hresponds'
    rw [hresponds, EStateM.Result.ok.injEq] at hresponds'
    obtain ⟨rfl, rfl⟩ := hresponds'
    exact ⟨hcomplete, hproves⟩
  · rintro ⟨hcomplete, hproves⟩
    exact ⟨signature, response, h', hsign, hresponds, hcomplete, hproves⟩

theorem Countersigned.unique {key₁ key₂ : PublicKey} (hkey₁ : Countersigned link o h key₁)
    (hkey₂ : Countersigned link o h key₂) : key₁ = key₂ := by
  obtain ⟨signature, response, h₁, hsign, hresponds, -, hproves₁⟩ := hkey₁
  obtain ⟨-, hproves₂⟩ := (countersigned_iff hsign hresponds).mp hkey₂
  exact hproves₁.unique hproves₂

/-- A run that authorizes nobody and leaves the reader as it was. -/
def Declines (a : Action TransactError (Linked σ) Verdict) (h : Hosted (Linked σ)) : Prop :=
  (∀ name key, (a.outcome h).1 ≠ .ok (.authorized name key)) ∧ (a.outcome h).2.own.reader = h.own.reader

theorem declines_of_unauthorized {a : Action TransactError (Linked σ) Verdict}
    (hrun : a h = .ok .unauthorized h') (hreader : h'.own.reader = h.own.reader) : Declines a h := by
  rw [Declines, outcome_ok hrun]
  exact ⟨fun _ _ => by simp, hreader⟩

theorem declines_of_error {a : Action TransactError (Linked σ) Verdict} {e : TransactError}
    (hrun : a h = .error e h') (hreader : h'.own.reader = h.own.reader) : Declines a h := by
  rw [Declines, outcome_error hrun]
  exact ⟨fun _ _ => by simp, hreader⟩

variable (link) in
theorem finishStandard_outcome (o : Opening) (h : Hosted (Linked σ)) :
    (∃ key h', Countersigned link o h key ∧
      finishStandard link o h = .ok (.authorized o.command.transactionIdentifier key) h' ∧
      h'.own.reader = ⟨h.own.reader.configuration,
        h.own.reader.knownDevices.add (o.device h.own.reader.configuration key)⟩) ∨
    ((∀ key, ¬ Countersigned link o h key) ∧ Declines (finishStandard link o) h) := by
  cases hsign : Signature.make h.own.reader.configuration.keyPair.privateKey
      ((o.handshake h.own.reader.configuration).authenticationData .reader) with
  | error e =>
    right
    refine ⟨?_, declines_of_error (finishStandard_of_unsigned hsign) rfl⟩
    rintro key ⟨signature, _, _, hsigned, _⟩
    rw [hsign] at hsigned
    cases hsigned
  | ok signature =>
    have hrun := finishStandard_of_signed link hsign
    cases hexchange : exchange link (Auth1Command.ofSignature signature).encode h with
    | error e h₁ =>
      right
      rw [bind_error hexchange] at hrun
      have hkept := keeps_exchange link (Auth1Command.ofSignature signature).encode h
      rw [outcome_error hexchange] at hkept
      refine ⟨?_, declines_of_error hrun hkept⟩
      rintro key ⟨_, response, h₂, hsigned, hresponds, _⟩
      rw [hsign, Except.ok.injEq] at hsigned
      subst hsigned
      rw [exchange_eq_ok_iff.mpr hresponds] at hexchange
      cases hexchange
    | ok response h₁ =>
      have hresponds := exchange_eq_ok_iff.mp hexchange
      rw [bind_ok hexchange] at hrun
      have hdecides (key : PublicKey) : Countersigned link o h key ↔
          response.status.sw1 = 0x90 ∧ Proves o h.own.reader.configuration response.payload key :=
        countersigned_iff hsign hresponds
      by_cases hcomplete : (Auth1Response.ofResponse response).IsComplete
      · cases hproven : o.provenKey h.own.reader.configuration (.ofResponse response) with
        | error complaint =>
          right
          rw [if_neg (not_not_intro hcomplete), hproven] at hrun
          refine ⟨fun key hkey => ?_, declines_of_unauthorized hrun hresponds.reader_eq⟩
          rw [provenKey_eq_ok_iff.mpr ((hdecides key).mp hkey).2] at hproven
          cases hproven
        | ok key =>
          left
          have hproves := provenKey_eq_ok_iff.mp hproven
          obtain ⟨log, haccepts⟩ := finishStandard_of_proves hsign hresponds hcomplete hproves
          exact ⟨key, _, (hdecides key).mpr ⟨hcomplete, hproves⟩, haccepts, rfl⟩
      · right
        rw [if_pos hcomplete] at hrun
        exact ⟨fun key hkey => hcomplete ((hdecides key).mp hkey).1,
          declines_of_unauthorized hrun hresponds.reader_eq⟩

/-! ### Whole transactions -/

theorem opens_iff : Opens link code h o h' ↔ ∃ select h₁ version,
    sendSelect link h = .ok (some select) h₁ ∧
    h₁.own.reader.configuration.versions.negotiate? select.supportedVersions = some version ∧
    sendAuth0 link code version select.supportedVersions
      { h₁ with log := h₁.log ++ [⟨.debug, "negotiated protocol version " ++ Hex.prefixed16 version⟩] }
      = .ok o h' := by
  simp only [sendSelect_eq_some_iff, sendAuth0_eq_ok_iff]
  constructor
  · rintro ⟨selected, h₁, select, version, answered, hselected, hsuccess, hselect, hversion, hoffered,
      hephemeral, hcommand, hanswered, hopened⟩
    refine ⟨select, h₁, version, ⟨selected, hselected, hsuccess, hselect⟩, ?_, answered, hoffered,
      hephemeral, ?_, hanswered, hopened⟩
    · rw [hselected.reader_eq]
      exact hversion
    · rw [hselected.reader_eq]
      exact hcommand
  · rintro ⟨select, h₁, version, ⟨selected, hselected, hsuccess, hselect⟩, hversion, answered, hoffered,
      hephemeral, hcommand, hanswered, hopened⟩
    rw [hselected.reader_eq] at hversion hcommand
    exact ⟨selected, h₁, select, version, answered, hselected, hsuccess, hselect, hversion, hoffered,
      hephemeral, hcommand, hanswered, hopened⟩

theorem Opens.unique {o₁ o₂ : Opening} {h₁ h₂ : Hosted (Linked σ)} (hopens₁ : Opens link code h o₁ h₁)
    (hopens₂ : Opens link code h o₂ h₂) : o₁ = o₂ ∧ h₁ = h₂ := by
  -- the link answers one thing to a command
  obtain ⟨select, t, version, hselect, hversion, hopen⟩ := opens_iff.mp hopens₁
  obtain ⟨select₂, t₂, version₂, hselect₂, hversion₂, hopen₂⟩ := opens_iff.mp hopens₂
  rw [hselect, EStateM.Result.ok.injEq, Option.some.injEq] at hselect₂
  obtain ⟨rfl, rfl⟩ := hselect₂
  rw [hversion, Option.some.injEq] at hversion₂
  subst hversion₂
  rw [hopen, EStateM.Result.ok.injEq] at hopen₂
  exact hopen₂

/-! ### The two ends -/

theorem acceptsFast_iff {key : PublicKey} : AcceptsFast link o h key ↔
    ∃ device, o.known? h.own.reader = some device ∧ device.publicKey = key ∧
      ∃ response h₁, Responds link (compared o h) ControlFlowCommand.success.encode response h₁ := by
  simp only [known?_eq_some_iff]
  constructor
  · rintro ⟨cryptogram, earlier, device, later, hsent, hlist, hearlier, hmatch, hkey, hresponds⟩
    exact ⟨device, ⟨cryptogram, earlier, later, hsent, hlist, hearlier, hmatch⟩, hkey, hresponds⟩
  · rintro ⟨device, ⟨cryptogram, earlier, later, hsent, hlist, hearlier, hmatch⟩, hkey, hresponds⟩
    exact ⟨cryptogram, earlier, device, later, hsent, hlist, hearlier, hmatch, hkey, hresponds⟩

theorem acceptsStandard_iff {key : PublicKey} : AcceptsStandard link o h key ↔
    o.known? h.own.reader = none ∧ Countersigned link o (compared o h) key :=
  and_congr known?_eq_none_iff.symm Iff.rfl

variable (link) in
/-- What a transaction does once a handshake is open. -/
def finish (o : Opening) : Action TransactError (Linked σ) Verdict := fun h =>
  match o.known? h.own.reader with
  | some device => finishFast link o device (compared o h)
  | none => finishStandard link o (compared o h)

theorem finish_eq_of_known {device : KnownDevice} (hknown : o.known? h.own.reader = some device) :
    finish link o h = finishFast link o device (compared o h) := by
  unfold finish
  split
  · next device' hknown' =>
    rw [hknown, Option.some.injEq] at hknown'
    rw [hknown']
  · next hnone =>
    rw [hknown] at hnone
    cases hnone

theorem finish_eq_of_unmatched (hunmatched : o.known? h.own.reader = none) :
    finish link o h = finishStandard link o (compared o h) := by
  unfold finish
  split
  · next device hknown =>
    rw [hunmatched] at hknown
    cases hknown
  · rfl

variable (link) in
theorem finish_of_known {device : KnownDevice} (hknown : o.known? h.own.reader = some device) :
    (∀ name key, ((finish link o).outcome h).1 = .ok (.authorized name key) ↔
      name = o.command.transactionIdentifier ∧ AcceptsFast link o h key) ∧
    ((finish link o).outcome h).2.own.reader = h.own.reader := by
  have hrun : (finish link o).outcome h = (finishFast link o device).outcome (compared o h) :=
    outcome_congr (finish_eq_of_known hknown)
  rw [hrun]
  refine ⟨fun name key => ?_, keeps_finishFast o device (compared o h)⟩
  rw [outcome_fst_eq_ok_iff, finishFast_eq_ok_iff, acceptsFast_iff, Verdict.authorized.injEq, and_assoc]
  refine and_congr Iff.rfl ?_
  constructor
  · rintro ⟨rfl, hresponds⟩
    exact ⟨device, hknown, rfl, hresponds⟩
  · rintro ⟨device', hknown', rfl, hresponds⟩
    rw [hknown, Option.some.injEq] at hknown'
    subst hknown'
    exact ⟨rfl, hresponds⟩

variable (link) in
theorem finish_of_unmatched (hunmatched : o.known? h.own.reader = none) :
    (∃ key, Countersigned link o (compared o h) key ∧
      (∀ name key', ((finish link o).outcome h).1 = .ok (.authorized name key') ↔
        name = o.command.transactionIdentifier ∧ key' = key) ∧
      ((finish link o).outcome h).2.own.reader = ⟨h.own.reader.configuration,
        h.own.reader.knownDevices.add (o.device h.own.reader.configuration key)⟩) ∨
    ((∀ key, ¬ Countersigned link o (compared o h) key) ∧ Declines (finish link o) h) := by
  have hrun : (finish link o).outcome h = (finishStandard link o).outcome (compared o h) :=
    outcome_congr (finish_eq_of_unmatched hunmatched)
  have hcases := finishStandard_outcome link o (compared o h)
  rw [compared_own] at hcases
  rcases hcases with ⟨key, h', hkey, haccepts, hreader⟩ | ⟨hunsigned, hverdict, hkept⟩
  · left
    rw [hrun, outcome_ok haccepts]
    refine ⟨key, hkey, fun name key' => ?_, hreader⟩
    rw [Except.ok.injEq, Verdict.authorized.injEq]
    exact and_congr eq_comm eq_comm
  · right
    rw [Declines, hrun]
    exact ⟨hunsigned, hverdict, hkept⟩

variable (link) in
/-- A transaction opens a handshake and finishes it, or it declines. -/
theorem transact_cases (code : TransactionCode) (h : Hosted (Linked σ)) :
    (∃ o h', Opens link code h o h' ∧ h'.own.reader = h.own.reader ∧
      transact link code h = finish link o h') ∨
    ((∀ o h', ¬ Opens link code h o h') ∧ Declines (transact link code) h) := by
  have hkept := keeps_sendSelect link h
  simp only [opens_iff]
  cases hselect : sendSelect link h with
  | error e h₁ =>
    right
    rw [outcome_error hselect] at hkept
    refine ⟨?_, declines_of_error (bind_error hselect) hkept⟩
    rintro o h' ⟨select, _, _, hselected, _⟩
    cases hselected
  | ok select? h₁ =>
    rw [outcome_ok hselect] at hkept
    dsimp only at hkept
    cases select? with
    | none =>
      right
      refine ⟨?_, declines_of_unauthorized (bind_ok hselect) hkept⟩
      rintro o h' ⟨select, _, _, hselected, _⟩
      cases hselected
    | some select =>
      have hrun : transact link code h = _ := bind_ok hselect
      dsimp only at hrun
      rw [bind_ok (own_eq _)] at hrun
      cases hversion : h₁.own.reader.configuration.versions.negotiate? select.supportedVersions with
      | none =>
        right
        rw [hversion] at hrun
        refine ⟨?_, declines_of_error hrun hkept⟩
        rintro o h' ⟨_, _, _, hselected, hnegotiated, _⟩
        cases hselected
        rw [hversion] at hnegotiated
        cases hnegotiated
      | some version =>
        rw [hversion] at hrun
        dsimp only at hrun
        rw [bind_ok (debug_eq _ _)] at hrun
        cases hopen : sendAuth0 link code version select.supportedVersions
            { h₁ with log := h₁.log ++ [⟨.debug, "negotiated protocol version " ++ Hex.prefixed16 version⟩] } with
        | error e h₂ =>
          right
          rw [bind_error hopen] at hrun
          have hkept₂ := keeps_sendAuth0 link code version select.supportedVersions
            { h₁ with log := h₁.log ++ [⟨.debug, "negotiated protocol version " ++ Hex.prefixed16 version⟩] }
          rw [outcome_error hopen] at hkept₂
          refine ⟨?_, declines_of_error hrun (hkept₂.trans hkept)⟩
          rintro o h' ⟨_, _, _, hselected, hnegotiated, hopened⟩
          cases hselected
          rw [hversion, Option.some.injEq] at hnegotiated
          subst hnegotiated
          rw [hopen] at hopened
          cases hopened
        | ok o h₂ =>
          left
          rw [bind_ok hopen, bind_ok (knownDevice?_eq o h₂)] at hrun
          have hkept₂ := (keeps_sendAuth0 link code version select.supportedVersions).ok hopen
          refine ⟨o, h₂, ⟨select, h₁, version, rfl, hversion, hopen⟩, hkept₂.trans hkept, ?_⟩
          rw [hrun, finish]
          cases o.known? h₂.own.reader <;> rfl

theorem transact_of_opens (hopens : Opens link code h o h') :
    (transact link code).outcome h = (finish link o).outcome h' := by
  rcases transact_cases link code h with ⟨o', h'', hopens', -, hfinish⟩ | ⟨hnone, -⟩
  · obtain ⟨rfl, rfl⟩ := hopens.unique hopens'
    exact outcome_congr hfinish
  · exact absurd hopens (hnone o h')

/-- A transaction authorizes exactly when it opens a handshake that is accepted on the fast or on the
standard path; the standard path adds the device to the list, and the reader stays as it was otherwise. -/
theorem transact_authorized_iff (link : Link σ) (code : TransactionCode) (h : Hosted (Linked σ)) :
    (∀ name key, ((transact link code).outcome h).1 = .ok (.authorized name key) ↔
      ∃ o h', Opens link code h o h' ∧ name = o.command.transactionIdentifier ∧
        (AcceptsFast link o h' key ∨ AcceptsStandard link o h' key)) ∧
    (∀ o h' key, Opens link code h o h' → AcceptsStandard link o h' key →
      ((transact link code).outcome h).2.own.reader = ⟨h.own.reader.configuration,
        h.own.reader.knownDevices.add (o.device h.own.reader.configuration key)⟩) ∧
    ((∀ o h' key, Opens link code h o h' → ¬ AcceptsStandard link o h' key) →
      ((transact link code).outcome h).2.own.reader = h.own.reader) := by
  rcases transact_cases link code h with ⟨o, h', hopens, hreader, hfinish⟩ | ⟨hnone, hdeclines⟩
  · have hrun : (transact link code).outcome h = (finish link o).outcome h' := by
      rw [outcome, outcome, hfinish]
    have hopened {P : Opening → Hosted (Linked σ) → Prop} :
        (∃ o' h'', Opens link code h o' h'' ∧ P o' h'') ↔ P o h' := by
      constructor
      · rintro ⟨o', h'', hopens', hp⟩
        obtain ⟨rfl, rfl⟩ := hopens.unique hopens'
        exact hp
      · exact fun hp => ⟨o, h', hopens, hp⟩
    simp only [hopened, hrun, ← hreader, acceptsStandard_iff]
    cases hknown : o.known? h'.own.reader with
    | some device =>
      obtain ⟨hverdict, hkept⟩ := finish_of_known link hknown
      refine ⟨fun name key => ?_, ?_, fun _ => hkept⟩
      · rw [hverdict]
        simp
      · rintro o' h'' key hopens' ⟨hunmatched, -⟩
        obtain ⟨rfl, rfl⟩ := hopens.unique hopens'
        rw [hknown] at hunmatched
        cases hunmatched
    | none =>
      have hnotfast : ∀ key, ¬ AcceptsFast link o h' key := by
        intro key hfast
        obtain ⟨device, hsome, -⟩ := acceptsFast_iff.mp hfast
        rw [hknown] at hsome
        cases hsome
      rcases finish_of_unmatched link hknown with
        ⟨key, hkey, hverdict, hadded⟩ | ⟨hunsigned, hdeclines⟩
      · refine ⟨fun name key' => ?_, ?_, fun hnot => absurd ⟨hknown, hkey⟩ (hnot o h' key hopens)⟩
        · rw [hverdict]
          refine and_congr Iff.rfl ⟨?_, ?_⟩
          · rintro rfl
            exact Or.inr ⟨rfl, hkey⟩
          · rintro (hfast | ⟨-, hkey'⟩)
            · exact absurd hfast (hnotfast key')
            · exact hkey'.unique hkey
        · rintro o' h'' key' hopens' ⟨-, hkey'⟩
          obtain ⟨rfl, rfl⟩ := hopens.unique hopens'
          rw [hkey'.unique hkey]
          exact hadded
      · refine ⟨fun name key => ?_, ?_, fun _ => hdeclines.2⟩
        · simp [hdeclines.1, hnotfast, hunsigned]
        · rintro o' h'' key hopens' ⟨-, hsigned⟩
          obtain ⟨rfl, rfl⟩ := hopens.unique hopens'
          exact absurd hsigned (hunsigned key)
  · refine ⟨fun name key => ?_, ?_, fun _ => hdeclines.2⟩
    · simp [hdeclines.1, hnone]
    · intro o h' key hopens
      exact absurd hopens (hnone o h')

end TapAccess.Reader
