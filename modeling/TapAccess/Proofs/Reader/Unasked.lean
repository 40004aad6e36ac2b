import TapAccess.Proofs.Message.Commands
import TapAccess.Proofs.Message.Responses
import TapAccess.Proofs.Reader.Authorization

/-!
# Readers that do not ask for fast transactions

A reader that does not want fast transactions says so in AUTH0, and looks at a cryptogram all the same when one comes
back. `authorized_without_fast` reads off the record of a transaction with such a reader what an authorization rests
on: on AUTH1 and a verified signature of the endpoint, or on the cryptogram of a known device that was not asked for.

The second way is there. Whoever shares a key with the reader and sends a cryptogram unasked is authorized without
AUTH1 (`authorized_unasked`): the cryptogram only has to be bound to the parameter byte that AUTH0 did have.
-/

namespace TapAccess.Reader

open TapAccess.Action

variable {σ : Type} {link : Link σ}

/-! ### The record of a transaction -/

theorem recorded_eq (link : Link σ) (command : Bytes) (h : Hosted (σ × List Exchange)) :
    link.recorded command h =
      match link command ⟨h.own.1, h.random, h.log⟩ with
      | .ok answer t => .ok answer ⟨(t.own, h.own.2 ++ [(command, .ok answer)]), t.random, t.log⟩
      | .error cause t => .error cause ⟨(t.own, h.own.2 ++ [(command, .error cause)]), t.random, t.log⟩ := by
  cases hlink : link command ⟨h.own.1, h.random, h.log⟩ with
  | ok answer t =>
    have hcarried : (((link command).within (·.1) fun s (both : σ × List Exchange) => (s, both.2)).attempt :
        Action String _ _) h = .ok (.ok answer) ⟨(t.own, h.own.2), t.random, t.log⟩ := by
      simp only [attempt, within, hlink]
    rw [Link.recorded, bind_ok hcarried]
    rfl
  | error cause t =>
    have hcarried : (((link command).within (·.1) fun s (both : σ × List Exchange) => (s, both.2)).attempt :
        Action String _ _) h = .ok (.error cause) ⟨(t.own, h.own.2), t.random, t.log⟩ := by
      simp only [attempt, within, hlink]
    rw [Link.recorded, bind_ok hcarried]
    rfl

theorem recorded_eq_ok_iff {command answer : Bytes} {h h' : Hosted (σ × List Exchange)} :
    link.recorded command h = .ok answer h' ↔ ∃ t, link command ⟨h.own.1, h.random, h.log⟩ = .ok answer t ∧
      h' = ⟨(t.own, h.own.2 ++ [(command, .ok answer)]), t.random, t.log⟩ := by
  rw [recorded_eq]
  cases link command ⟨h.own.1, h.random, h.log⟩ with
  | ok sent t =>
    constructor
    · intro hrun
      cases hrun
      exact ⟨t, rfl, rfl⟩
    · rintro ⟨_, hsent, rfl⟩
      cases hsent
      rfl
  | error e t =>
    constructor
    · intro hrun
      cases hrun
    · rintro ⟨_, hsent, -⟩
      cases hsent

variable {h h' : Hosted (Linked (σ × List Exchange))}

theorem Responds.recorded_eq {command : Bytes} {response : Response}
    (hresponds : Responds link.recorded h command response h') : ∃ answer, Response.parse answer = .ok response ∧
      h'.own.link.2 = h.own.link.2 ++ [(command, .ok answer)] := by
  obtain ⟨answer, ⟨_, hrun, rfl⟩, hparse⟩ := hresponds
  obtain ⟨t, -, rfl⟩ := recorded_eq_ok_iff.mp hrun
  exact ⟨answer, hparse, rfl⟩

/-- The answer that was recorded is the one that the opening has read. -/
def Opening.ReadFrom (o : Opening) (answer : Bytes) : Prop :=
  ∃ response, Response.parse answer = .ok response ∧ Auth0Response.ofResponse response = .ok o.response

theorem Opens.recorded_eq {code : TransactionCode} {o : Opening} (hopens : Opens link.recorded code h o h') :
    ∃ select answer, o.ReadFrom answer ∧ h'.own.link.2 = h.own.link.2 ++
      [(SelectCommand.access.encode, .ok select), (o.command.encode, .ok answer)] := by
  obtain ⟨selected, h₁, _, _, answered, hselected, -, -, -, -, -, -, hanswered, -, hread⟩ := hopens
  obtain ⟨select, -, hfirst⟩ := hselected.recorded_eq
  obtain ⟨answer, hparse, hsecond⟩ := hanswered.recorded_eq
  refine ⟨select, answer, ⟨answered, hparse, hread⟩, ?_⟩
  rw [hsecond, hfirst, List.append_assoc]
  rfl

/-! ### What an authorization rests on -/

/-- The exchange is AUTH1 with the reader's signature of the handshake, and its answer proves the key with a
signature of the endpoint. -/
def Opening.VerifiedBy (o : Opening) (configuration : Configuration) (exchange : Exchange) (key : PublicKey) : Prop :=
  ∃ signature answer response,
    Signature.make configuration.keyPair.privateKey ((o.handshake configuration).authenticationData .reader)
      = .ok signature ∧
    exchange = ((Auth1Command.ofSignature signature).encode, .ok answer) ∧ Response.parse answer = .ok response ∧
    response.status.sw1 = 0x90 ∧ Proves o configuration response.payload key

/-- AUTH0 was answered with the cryptogram of a device that the reader knows, and the exchange is CONTROL_FLOW. -/
def Opening.MatchedBy (o : Opening) (reader : Reader) (exchange : Exchange) (key : PublicKey) : Prop :=
  ∃ device answer, device ∈ reader.knownDevices.devices ∧ device.publicKey = key ∧
    o.response.cryptogram = some (o.fastDerivation reader.configuration device).cryptogram ∧
    exchange = (ControlFlowCommand.success.encode, .ok answer)

variable {o : Opening} {name : Identifier} {key : PublicKey}

theorem verifiedBy_of_finishStandard
    (hauthorized : ((finishStandard link.recorded o).outcome h).1 = .ok (.authorized name key)) :
    name = o.command.transactionIdentifier ∧ ∃ last, o.VerifiedBy h.own.reader.configuration last key ∧
      ((finishStandard link.recorded o).outcome h).2.own.link.2 = h.own.link.2 ++ [last] := by
  rcases finishStandard_outcome link.recorded o h with ⟨key', h', hsigned, haccepts, -⟩ | ⟨-, hdeclines, -⟩
  · rw [outcome_ok haccepts] at hauthorized
    cases hauthorized
    obtain ⟨signature, response, h₁, hmade, hresponds, hcomplete, hproves⟩ := hsigned
    obtain ⟨answer, hparse, hrecord⟩ := hresponds.recorded_eq
    obtain ⟨log, hends⟩ := finishStandard_of_proves hmade hresponds hcomplete hproves
    refine ⟨rfl, _, ⟨signature, answer, response, hmade, rfl, hparse, hcomplete, hproves⟩, ?_⟩
    rw [outcome_ok hends]
    exact hrecord
  · exact absurd hauthorized (hdeclines name key)

theorem matchedBy_of_finishFast {reader : Reader} {device : KnownDevice} (hknown : o.known? reader = some device)
    (hauthorized : ((finishFast link.recorded o device).outcome h).1 = .ok (.authorized name key)) :
    name = o.command.transactionIdentifier ∧ ∃ last, o.MatchedBy reader last key ∧
      ((finishFast link.recorded o device).outcome h).2.own.link.2 = h.own.link.2 ++ [last] := by
  obtain ⟨cryptogram, earlier, later, hsent, hlist, -, hmatch⟩ := known?_eq_some_iff.mp hknown
  rw [outcome_fst_eq_ok_iff, finishFast_eq_ok_iff] at hauthorized
  obtain ⟨hverdict, response, h₁, hresponds⟩ := hauthorized
  obtain ⟨rfl, rfl⟩ := Verdict.authorized.inj hverdict
  obtain ⟨answer, -, hrecord⟩ := hresponds.recorded_eq
  obtain ⟨log, hends⟩ := finishFast_of_responds o device hresponds
  refine ⟨rfl, _, ⟨device, answer, by simp [hlist], rfl, ?_, rfl⟩, ?_⟩
  · rw [hsent, hmatch]
  · rw [outcome_ok hends]
    exact hrecord

theorem Opens.fast_eq {code : TransactionCode} (hopens : Opens link.recorded code h o h') :
    o.command.fast = h.own.reader.configuration.sendFastTransaction := by
  obtain ⟨_, _, _, _, _, -, -, -, -, -, -, hcommand, -⟩ := hopens
  rw [hcommand, auth0Command]

/-- A reader that does not ask for fast transactions authorizes after SELECT, AUTH0 and one exchange more: AUTH1, with
a signature of the endpoint in the answer that verifies, or CONTROL_FLOW, when AUTH0 was answered with the cryptogram
of a known device although it asked for none. -/
theorem authorized_without_fast (link : Link σ) (code : TransactionCode) (h : Hosted (Linked (σ × List Exchange)))
    (name : Identifier) (key : PublicKey) (hstandard : h.own.reader.configuration.sendFastTransaction = false)
    (hauthorized : ((transact link.recorded code).outcome h).1 = .ok (.authorized name key)) :
    ∃ o opened select answer last, Opens link.recorded code h o opened ∧ o.command.fast = false ∧
      name = o.command.transactionIdentifier ∧ o.ReadFrom answer ∧
      ((transact link.recorded code).outcome h).2.own.link.2 = h.own.link.2 ++
        [(SelectCommand.access.encode, .ok select), (o.command.encode, .ok answer), last] ∧
      (o.VerifiedBy h.own.reader.configuration last key ∨ o.MatchedBy h.own.reader last key) := by
  rcases transact_cases link.recorded code h with ⟨o, opened, hopens, hreader, hfinish⟩ | ⟨-, hdeclines, -⟩
  · obtain ⟨select, answer, hread, hrecord⟩ := hopens.recorded_eq
    have hfast : o.command.fast = false := hopens.fast_eq.trans hstandard
    rw [outcome_congr hfinish] at hauthorized ⊢
    have hends : name = o.command.transactionIdentifier ∧ ∃ last,
        (o.VerifiedBy h.own.reader.configuration last key ∨ o.MatchedBy h.own.reader last key) ∧
        ((finish link.recorded o).outcome opened).2.own.link.2 = opened.own.link.2 ++ [last] := by
      rw [← hreader]
      cases hknown : o.known? opened.own.reader with
      | some device =>
        rw [outcome_congr (finish_eq_of_known hknown)] at hauthorized ⊢
        obtain ⟨hname, last, hmatched, hlast⟩ := matchedBy_of_finishFast hknown hauthorized
        exact ⟨hname, last, Or.inr hmatched, hlast⟩
      | none =>
        rw [outcome_congr (finish_eq_of_unmatched hknown)] at hauthorized ⊢
        obtain ⟨hname, last, hverified, hlast⟩ := verifiedBy_of_finishStandard hauthorized
        exact ⟨hname, last, Or.inl hverified, hlast⟩
    obtain ⟨hname, last, hrests, hlast⟩ := hends
    refine ⟨o, opened, select, answer, last, hopens, hfast, hname, hread, ?_, hrests⟩
    rw [hlast, hrecord, List.append_assoc]
    rfl
  · exact absurd hauthorized (hdeclines name key)

/-! ### A cryptogram that was not asked for -/

theorem transact_of_known {link : Link σ} {h h' h₁ : Hosted (Linked σ)} {code : TransactionCode} {o : Opening}
    {device : KnownDevice} {response : Response} (hopens : Opens link code h o h')
    (hknown : o.known? h'.own.reader = some device)
    (hresponds : Responds link (compared o h') ControlFlowCommand.success.encode response h₁) :
    ∃ log, (transact link code).outcome h =
      (.ok (.authorized o.command.transactionIdentifier device.publicKey), { h₁ with log }) := by
  obtain ⟨log, hends⟩ := finishFast_of_responds o device hresponds
  refine ⟨log, ?_⟩
  rw [transact_of_opens hopens, outcome_congr (finish_eq_of_known hknown)]
  exact outcome_ok hends

/-- Answers every command with a response that hangs on nothing else. -/
def replying (respond : Bytes → Response) : Link Unit := fun frame => pure (respond frame).encode

theorem responds_replying (respond : Bytes → Response) (reader : Reader) (exchanges : List Exchange)
    (random : RandomSource) (log : List Event) {command : Bytes} {response : Response}
    (hresponse : respond command = response) (hcanonical : response.status.Canonical) :
    ∃ log', Responds (replying respond).recorded ⟨⟨reader, ((), exchanges)⟩, random, log⟩ command response
      ⟨⟨reader, ((), exchanges ++ [(command, .ok response.encode)])⟩, random, log'⟩ := by
  subst hresponse
  exact ⟨_, _, ⟨_, recorded_eq_ok_iff.mpr ⟨_, rfl, rfl⟩, rfl⟩, Response.parse_encode hcanonical⟩

/-- What the holder of a device derives a cryptogram from, whether AUTH0 asks for one or not. -/
def volunteeredInput (configuration : Configuration) (device : KnownDevice) (endpointEphemeral : PublicKey)
    (c : Auth0Command) : FastDerivation where
  transactionIdentifier := c.transactionIdentifier
  endpointKey := device.publicKey
  readerKey := configuration.keyPair.publicKey
  readerIdentifier := c.readerIdentifier
  persistentKey := device.persistentKey
  version := c.version
  supportedVersions := Versions.standard.encode
  readerEphemeral := c.readerEphemeral
  endpointEphemeral := endpointEphemeral
  flag := c.flag

/-- The answers of the holder of a device, who sends a cryptogram with every answer to AUTH0. -/
def volunteer (configuration : Configuration) (device : KnownDevice) (endpointEphemeral : PublicKey)
    (frame : Bytes) : Response :=
  match Request.decode frame with
  | .ok (.select _) => (SelectResponse.ofVersions .standard).toResponse
  | .ok (.auth0 c) =>
    let input := volunteeredInput configuration device endpointEphemeral c
    Auth0Response.toResponse ⟨endpointEphemeral, some input.cryptogram⟩
  | _ => .ofCode .genericError

/-- A reader that knows one device and has not exchanged anything yet. -/
def acquainted (configuration : Configuration) (device : KnownDevice) (random : RandomSource) :
    Hosted (Linked (Unit × List Exchange)) := ⟨⟨⟨configuration, ⟨[device]⟩⟩, ((), [])⟩, random, []⟩

/-- What the reader learns from the holder of a device. -/
def volunteeredOpening (configuration : Configuration) (device : KnownDevice) (endpointEphemeral : PublicKey)
    (code : TransactionCode) (version : Version) (random : RandomSource) : Opening where
  command := auth0Command configuration code version random.keyPair.1 (random.keyPair.2.octets 16).1
  readerEphemeral := random.keyPair.1
  response := ⟨endpointEphemeral, some (volunteeredInput configuration device endpointEphemeral (auth0Command
    configuration code version random.keyPair.1 (random.keyPair.2.octets 16).1)).cryptogram⟩
  supportedVersions := Versions.standard.encode

theorem volunteeredInput_named (configuration : Configuration) (device : KnownDevice) (endpointEphemeral : PublicKey)
    (c : Auth0Command) : volunteeredInput configuration device endpointEphemeral c.named =
      volunteeredInput configuration device endpointEphemeral c := by
  rw [volunteeredInput, volunteeredInput, c.flag_named]
  rfl

/-- The reader compares with the cryptogram that its own AUTH0 leads to, and that is the one it is sent. -/
theorem known?_volunteeredOpening (configuration : Configuration) (device : KnownDevice)
    (endpointEphemeral : PublicKey) (code : TransactionCode) (version : Version) (random : RandomSource) :
    (volunteeredOpening configuration device endpointEphemeral code version random).known?
      ⟨configuration, ⟨[device]⟩⟩ = some device :=
  known?_eq_some_iff.mpr ⟨_, [], [], rfl, rfl, List.forall_mem_nil _, rfl⟩

/-- Whatever the reader's configuration says of fast transactions, the holder of a device that it knows is authorized
with a cryptogram, and AUTH1 is not sent. -/
theorem authorized_unasked {configuration : Configuration} {version : Version} (device : KnownDevice)
    (endpointEphemeral : PublicKey) (code : TransactionCode) (random : RandomSource)
    (hversion : configuration.versions.negotiate? Versions.standard.encode = some version) :
    ∃ (c : Auth0Command) (after : Hosted (Linked (Unit × List Exchange))),
      (transact (replying (volunteer configuration device endpointEphemeral)).recorded code).outcome
        (acquainted configuration device random) =
          (.ok (.authorized c.transactionIdentifier device.publicKey), after) ∧
      after.own.link.2.map (·.1) =
        [SelectCommand.access.encode, c.encode, ControlFlowCommand.success.encode] := by
  obtain ⟨o, ho⟩ : ∃ o, o = volunteeredOpening configuration device endpointEphemeral code version random := ⟨_, rfl⟩
  have hselect : volunteer configuration device endpointEphemeral SelectCommand.access.encode =
      (SelectResponse.ofVersions .standard).toResponse := by
    rw [volunteer, SelectCommand.decode_encode (by decide)]
  have hanswer : volunteer configuration device endpointEphemeral o.command.encode = o.response.toResponse := by
    rw [volunteer, Auth0Command.decode_encode]
    dsimp only
    rw [volunteeredInput_named, ho]
    rfl
  have hend : volunteer configuration device endpointEphemeral ControlFlowCommand.success.encode =
      .ofCode .genericError := by
    rw [volunteer, ControlFlowCommand.decode_success]
  obtain ⟨log₁, hselected⟩ := responds_replying _ ⟨configuration, ⟨[device]⟩⟩ [] random [] hselect
    (StatusWord.canonical_known _)
  obtain ⟨log₂, hanswered⟩ := responds_replying _ ⟨configuration, ⟨[device]⟩⟩ _ (random.keyPair.2.octets 16).2
    (log₁ ++ [⟨.debug, "negotiated protocol version " ++ Hex.prefixed16 version⟩]) hanswer
    (StatusWord.canonical_known _)
  have hopens : Opens _ code _ o _ := opens_of_responds hselected rfl
    (SelectResponse.ofResponse_toResponse (SelectResponse.encodable_ofVersions (by decide))) hversion
    (by rw [ho]; rfl) (by rw [ho]; rfl) (by rw [ho]; rfl) hanswered rfl (Auth0Response.ofResponse_toResponse _)
  have hknown : o.known? ⟨configuration, ⟨[device]⟩⟩ = some device := by
    rw [ho]
    exact known?_volunteeredOpening configuration device endpointEphemeral code version random
  obtain ⟨log₃, hended⟩ := responds_replying _ ⟨configuration, ⟨[device]⟩⟩ _ (random.keyPair.2.octets 16).2
    (log₂ ++ o.remark ⟨configuration, ⟨[device]⟩⟩) hend (StatusWord.canonical_known _)
  obtain ⟨log, hrun⟩ := transact_of_known hopens hknown hended
  exact ⟨o.command, _, hrun, rfl⟩

theorem two_lt_order : 2 < P256.n := by decide +kernel

theorem three_lt_order : 3 < P256.n := by decide +kernel

def standardReader : Configuration where
  identifier := ⟨.replicate 16 0x01, .replicate 16 0x02⟩
  keyPair := .ofPrivateKey ⟨2, Nat.two_pos, two_lt_order⟩
  sendFastTransaction := false

def metDevice : KnownDevice :=
  ⟨(KeyPair.ofPrivateKey ⟨3, Nat.succ_pos 2, three_lt_order⟩).publicKey, ⟨.replicate 32 0x08⟩⟩

/-- A reader that does not ask for fast transactions, and that has met one device. -/
def standardHost : Hosted (Linked (Unit × List Exchange)) := acquainted standardReader metDevice ⟨fun _ => 0x05, 0⟩

/-- The holder of the device answers. -/
def volunteering : Link Unit := replying (volunteer standardReader metDevice .generator)

theorem volunteering_authorized : ∃ (c : Auth0Command) (after : Hosted (Linked (Unit × List Exchange))),
    (transact volunteering.recorded .unlock).outcome standardHost =
      (.ok (.authorized c.transactionIdentifier metDevice.publicKey), after) ∧
    after.own.link.2.map (·.1) = [SelectCommand.access.encode, c.encode, ControlFlowCommand.success.encode] := by
  have hversion : standardReader.versions.negotiate? Versions.standard.encode = some 0x0100 := by decide
  exact authorized_unasked metDevice .generator .unlock ⟨fun _ => 0x05, 0⟩ hversion

/-- The reader does not ask for a fast transaction and authorizes, and nothing that it has sent is AUTH1. -/
theorem authorized_without_auth1 : standardHost.own.reader.configuration.sendFastTransaction = false ∧
    ∃ name, ((transact volunteering.recorded .unlock).outcome standardHost).1 =
        .ok (.authorized name metDevice.publicKey) ∧
      ∀ exchange ∈ ((transact volunteering.recorded .unlock).outcome standardHost).2.own.link.2,
        ∀ c, Request.decode exchange.1 ≠ .ok (.auth1 c) := by
  obtain ⟨c, after, hrun, hsent⟩ := volunteering_authorized
  rw [hrun]
  refine ⟨rfl, c.transactionIdentifier, rfl, ?_⟩
  intro exchange hmem auth1 hdecode
  have hframe : exchange.1 ∈ [SelectCommand.access.encode, c.encode, ControlFlowCommand.success.encode] := by
    rw [← hsent]
    exact List.mem_map_of_mem hmem
  rw [List.mem_cons, List.mem_cons, List.mem_singleton] at hframe
  rcases hframe with hselect | hauth0 | hcontrolFlow
  · rw [hselect, SelectCommand.decode_encode (by decide)] at hdecode
    cases hdecode
  · rw [hauth0, Auth0Command.decode_encode] at hdecode
    cases hdecode
  · rw [hcontrolFlow, ControlFlowCommand.decode_success] at hdecode
    cases hdecode

theorem authorized_without_fast_unasked : standardHost.own.reader.configuration.sendFastTransaction = false ∧
    ∃ (name : Identifier) (o : Opening) (last : Exchange),
      ((transact volunteering.recorded .unlock).outcome standardHost).1 =
        .ok (.authorized name metDevice.publicKey) ∧
      o.command.fast = false ∧ o.MatchedBy standardHost.own.reader last metDevice.publicKey := by
  obtain ⟨c, after, hrun, hsent⟩ := volunteering_authorized
  have hauthorized : ((transact volunteering.recorded .unlock).outcome standardHost).1 =
      .ok (.authorized c.transactionIdentifier metDevice.publicKey) := by rw [hrun]
  obtain ⟨o, _, select, answer, last, -, hfast, -, -, hrecord, hrests⟩ :=
    authorized_without_fast volunteering .unlock standardHost _ _ rfl hauthorized
  refine ⟨rfl, c.transactionIdentifier, o, last, hauthorized, hfast, ?_⟩
  rcases hrests with ⟨signature, _, _, -, rfl, -⟩ | hmatched
  · -- AUTH1 is not what was sent last
    rw [hrun] at hrecord
    dsimp only at hrecord
    rw [hrecord] at hsent
    simp only [standardHost, acquainted, List.nil_append, List.map_cons, List.map_nil, List.cons.injEq] at hsent
    have hdecode := Auth1Command.decode_ofSignature signature
    rw [hsent.2.2.1, ControlFlowCommand.decode_success] at hdecode
    cases hdecode
  · exact hmatched

end TapAccess.Reader
