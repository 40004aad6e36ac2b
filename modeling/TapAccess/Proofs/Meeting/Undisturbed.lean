import TapAccess.Proofs.Endpoint.Acceptance
import TapAccess.Proofs.Message.Commands
import TapAccess.Proofs.Message.Responses
import TapAccess.Proofs.Reader.Authorization

/-!
# A reader and an endpoint alone

The undisturbed link carries every command to the endpoint and every answer back as they are. `Encounter` holds
what both sides bring to a handshake, and its functions say what comes of it: the command that opens the
handshake, the endpoint's session, and what the reader knows after the endpoint's answer. `opens_undisturbed`:
when both sides have a version in common, this is the handshake that is opened.
-/

namespace TapAccess.Meeting

open TapAccess.Action Reader

/-- A reader and the endpoint that it meets, with everything that has been exchanged. -/
abbrev Pair := Linked (Endpoint × List Exchange)

/-- Carries frames to the endpoint and its answers back, and writes them down. -/
def undisturbed : Link (Endpoint × List Exchange) := Link.recorded fun frame => Endpoint.answer frame

/-- The commands that have been sent. -/
def sent (h : Hosted Pair) : List Bytes := h.own.link.2.map (·.1)

/-! ### The link -/

theorem undisturbed_yields (command : Bytes) (h : Hosted (Endpoint × List Exchange)) :
    Yields (undisturbed command) h (.ok (h.own.1.reply h.random command).response.encode)
      ((h.own.1.reply h.random command).endpoint,
        h.own.2 ++ [(command, .ok (h.own.1.reply h.random command).response.encode)])
      (h.own.1.reply h.random command).random := by
  have hcarried : Yields ((Endpoint.answer command : Action String Endpoint Bytes).within (·.1) fun s both =>
      (s, both.2)) h (.ok (h.own.1.reply h.random command).response.encode)
      ((h.own.1.reply h.random command).endpoint, h.own.2) (h.own.1.reply h.random command).random :=
    yields_within fun log => Endpoint.answer_yields command ⟨h.own.1, h.random, log⟩
  exact yields_bind_ok (yields_attempt hcarried) fun _ => yields_bind_ok (yields_update _) fun _ =>
    yields_ofExcept _

theorem responds_undisturbed (reader : Reader) {e e' : Endpoint} (exchanges : List Exchange)
    {random random' : RandomSource} (log : List Event) {command : Bytes} {response : Response}
    (hreply : e.reply random command = ⟨response, e', random'⟩) :
    ∃ log', Responds undisturbed ⟨⟨reader, (e, exchanges)⟩, random, log⟩ command response
      ⟨⟨reader, (e', exchanges ++ [(command, .ok response.encode)])⟩, random', log'⟩ := by
  obtain ⟨log', hrun⟩ := (undisturbed_yields command ⟨(e, exchanges), random,
    log ++ [⟨.debug, "sending APDU: " ++ Hex.encode command⟩]⟩).run_ok
  have hcanonical := Endpoint.canonical_reply e random command
  dsimp only at hrun
  rw [hreply] at hrun hcanonical
  exact ⟨_, _, ⟨_, hrun, rfl⟩, Response.parse_encode hcanonical⟩

/-! ### What both sides bring -/

/-- What a reader and an endpoint bring to a transaction. -/
structure Encounter where
  configuration : Configuration
  code : TransactionCode
  endpoint : Endpoint
  /-- The reader's ephemeral key pair, which is drawn first. -/
  readerEphemeral : KeyPair
  /-- The name of the transaction, which is drawn next. -/
  name : Identifier
  /-- The source from which the endpoint draws after the reader. -/
  random : RandomSource

namespace Encounter

/-- The encounter that a host state is about to see. -/
def of (code : TransactionCode) (h : Hosted Pair) : Encounter where
  configuration := h.own.reader.configuration
  code := code
  endpoint := h.own.link.1
  readerEphemeral := h.random.keyPair.1
  name := (h.random.keyPair.2.octets 16).1
  random := (h.random.keyPair.2.octets 16).2

/-- The first version that the endpoint offers and the reader supports; there has to be one. -/
def version (m : Encounter) : Version :=
  (m.configuration.versions.negotiate? m.endpoint.versions.encode).getD 0

/-- The command that opens the handshake. -/
def command (m : Encounter) : Auth0Command :=
  auth0Command m.configuration m.code m.version m.readerEphemeral m.name

/-- The session that the endpoint opens, still without keys of a channel. -/
def session (m : Encounter) : Session := m.endpoint.freshSession m.random m.command.named

/-- What the reader knows after the endpoint's answer. -/
def opening (m : Encounter) : Opening where
  command := m.command
  readerEphemeral := m.readerEphemeral
  response := m.endpoint.openedResponse m.command.named m.session
  supportedVersions := m.endpoint.versions.encode

def selection (m : Encounter) : SelectResponse := .ofVersions m.endpoint.versions

def selected (m : Encounter) : Endpoint := { m.endpoint with transaction := .selectDone }

def opened (m : Encounter) : Endpoint :=
  { m.endpoint with transaction := m.endpoint.openedTransaction m.command.named m.session }

/-- The source after the endpoint's draws. -/
def openedRandom (m : Encounter) : RandomSource :=
  (m.endpoint.choice m.random.keyPair.2 m.command.readerIdentifier.group).2

/-- What is exchanged until the handshake is open. -/
def exchanges (m : Encounter) : List Exchange := [
  (SelectCommand.access.encode, .ok m.selection.toResponse.encode),
  (m.command.encode, .ok m.opening.response.toResponse.encode)]

end Encounter

/-! ### Opening a handshake -/

theorem reply_select {m : Encounter} (random : RandomSource)
    (hready : m.endpoint.transaction.phase ≠ .auth0StandardDone) :
    m.endpoint.reply random SelectCommand.access.encode = ⟨m.selection.toResponse, m.selected, random⟩ := by
  have hdecode := SelectCommand.decode_encode (c := .access) (by decide)
  have hsettle : m.endpoint.settle random (.select .access) = ⟨.ok m.selection.toResponse, m.selected, random⟩ :=
    Endpoint.settleMove_of_legal _ random (Endpoint.legal_selectDone_iff.mpr hready)
  rw [Endpoint.reply_of_decode hdecode, hsettle]
  rfl

theorem reply_command (m : Encounter) (hsupports : m.endpoint.versions.Supports m.version) :
    m.selected.reply m.random m.command.encode =
      ⟨m.opening.response.toResponse, m.opened, m.openedRandom⟩ := by
  have hsettle : m.selected.settle m.random (.auth0 m.command.named) =
      ⟨.ok m.opening.response.toResponse, m.opened, m.openedRandom⟩ :=
    Endpoint.settleAuth0_of_ready _ rfl hsupports
  rw [Endpoint.reply_of_decode (Auth0Command.decode_encode m.command), hsettle]
  rfl

/-- The endpoint offers a number of versions that its answer has room for, and one of them is the reader's too. -/
structure Compatible (configuration : Configuration) (e : Endpoint) : Prop where
  few : e.versions.supported.length < 2 ^ 30
  common : ∃ version, configuration.versions.Supports version ∧ e.versions.Supports version

theorem Compatible.negotiate {m : Encounter} (hcompatible : Compatible m.configuration m.endpoint) :
    m.configuration.versions.negotiate? m.endpoint.versions.encode = some m.version ∧
      m.endpoint.versions.Supports m.version := by
  obtain ⟨version, hreader, hendpoint⟩ := hcompatible.common
  obtain ⟨negotiated, hsome, hsupports⟩ := Versions.exists_negotiate? hreader hendpoint
  have hversion : m.version = negotiated := by rw [Encounter.version, hsome, Option.getD_some]
  rw [hversion]
  exact ⟨hsome, hsupports⟩

/-- An undisturbed handshake is opened by what both sides bring to it. -/
theorem opens_undisturbed {code : TransactionCode} {h : Hosted Pair} {m : Encounter}
    (hm : m = .of code h) (hcompatible : Compatible m.configuration m.endpoint)
    (hready : m.endpoint.transaction.phase ≠ .auth0StandardDone) :
    ∃ log, Opens undisturbed code h m.opening
      ⟨⟨h.own.reader, (m.opened, h.own.link.2 ++ m.exchanges)⟩, m.openedRandom, log⟩ := by
  obtain ⟨hnegotiated, hsupports⟩ := hcompatible.negotiate
  have hephemeral : m.readerEphemeral = h.random.keyPair.1 := by rw [hm, Encounter.of]
  have hname : m.name = (h.random.keyPair.2.octets 16).1 := by rw [hm, Encounter.of]
  have hrandom : m.random = (h.random.keyPair.2.octets 16).2 := by rw [hm, Encounter.of]
  have hreader : h.own.reader.configuration = m.configuration := by rw [hm, Encounter.of]
  have hendpoint : h.own.link.1 = m.endpoint := by rw [hm, Encounter.of]
  have hcode : code = m.code := by rw [hm, Encounter.of]
  subst hcode
  have hselect := reply_select h.random hready
  rw [← hendpoint] at hselect
  obtain ⟨log₁, hselected⟩ := responds_undisturbed h.own.reader h.own.link.2 h.log hselect
  obtain ⟨log₂, hanswered⟩ := responds_undisturbed h.own.reader
    (h.own.link.2 ++ [(SelectCommand.access.encode, .ok m.selection.toResponse.encode)])
    (log₁ ++ [⟨.debug, "negotiated protocol version " ++ Hex.prefixed16 m.version⟩])
    (reply_command m hsupports)
  rw [List.append_assoc] at hanswered
  have hcommand : m.opening.command = auth0Command h.own.reader.configuration m.code m.version
      m.opening.readerEphemeral (h.random.keyPair.2.octets 16).1 := by
    rw [hreader, ← hname]
    rfl
  rw [hrandom] at hanswered
  rw [← hreader] at hnegotiated
  exact ⟨log₂, opens_of_responds hselected rfl
    (SelectResponse.ofResponse_toResponse (SelectResponse.encodable_ofVersions hcompatible.few)) hnegotiated rfl
    hephemeral hcommand hanswered rfl (Auth0Response.ofResponse_toResponse _)⟩

end TapAccess.Meeting
