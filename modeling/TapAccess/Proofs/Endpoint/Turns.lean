import TapAccess.Proofs.Endpoint.Correspondence

/-!
# What one moment can do

`Turn` lists everything that a moment of a history can be: the endpoint is deselected, a frame is refused, or one
of the four requests is accepted, each with the conditions that it has met and the endpoint afterwards.
`turn_of` says that there is nothing else. Whatever holds throughout a history is proved by going through these
cases once.
-/

namespace TapAccess.Endpoint

/-- Everything that a moment can be. -/
inductive Turn (m : Moment) : Prop
  /-- The endpoint is deselected. -/
  | deselected (hstimulus : m.stimulus = .deselect)
      (hafter : m.after.own = { m.before.own with transaction := .initial })
  /-- A frame is refused, and nothing changes. -/
  | refused (hquiet : ¬ m.Interrupts) (hafter : m.after.own = m.before.own)
  /-- A frame is refused because the endpoint comes to no signature; the shared key is kept all the same. -/
  | unsigned (session : Session) (hquiet : ¬ m.Interrupts)
      (hafter : m.after.own = m.before.own.withSharedKey session)
  /-- SELECT is accepted. -/
  | selected (c : SelectCommand) (haccepts : m.Accepts (.select c))
      (hlegal : Phase.Legal m.before.own.transaction.phase .selectDone)
      (hafter : m.after.own = { m.before.own with transaction := .selectDone })
  /-- CONTROL_FLOW is accepted. -/
  | noted (c : ControlFlowCommand) (haccepts : m.Accepts (.controlFlow c))
      (hlegal : Phase.Legal m.before.own.transaction.phase .selectDone)
      (hafter : m.after.own = { m.before.own with transaction := .selectDone })
  /-- AUTH0 is accepted. -/
  | opened (c : Auth0Command) (haccepts : m.Accepts (.auth0 c))
      (hready : m.before.own.transaction.phase = .selectDone) (hversion : m.before.own.versions.Supports c.version)
      (hoffers : m.Offers (m.before.own.freshSession m.before.random c).endpointEphemeral.publicKey)
      (hafter : m.after.own = { m.before.own with
        transaction := m.before.own.openedTransaction c (m.before.own.freshSession m.before.random c) })
  /-- AUTH1 is accepted. -/
  | completed (c : Auth1Command) (session : Session) (channel : Channel) (answered : Auth1Response)
      (haccepts : m.Accepts (.auth1 c)) (hopen : openSession? m.before.own.transaction = some session)
      (hsigned : countersigned session
        ((session.derivation m.before.own.versions.encode).channelKeys session.secret) = .ok (channel, answered))
      (hbrings : m.Brings answered.toResponse)
      (hafter : m.after.own = { m.before.own.withSharedKey session with
        transaction := .auth1Done { session with channel } })

theorem completed_of_ok {h : Hosted Endpoint} {bytes : Bytes} {c : Auth1Command} {response : Response}
    (hdecode : Request.decode bytes = .ok (.auth1 c)) (hok : (h.own.settle h.random (.auth1 c)).result = .ok response) :
    ∃ session channel answered, openSession? h.own.transaction = some session ∧
      countersigned session ((session.derivation h.own.versions.encode).channelKeys session.secret)
        = .ok (channel, answered) ∧
      (Moment.of h (.frame bytes)).Brings answered.toResponse ∧
      (Moment.of h (.frame bytes)).after.own =
        { h.own.withSharedKey session with transaction := .auth1Done { session with channel } } := by
  obtain ⟨session, channel, answered, hopen, -, hsigned, -, hsettle⟩ := settleAuth1_eq_of_ok hok
  change h.own.settle h.random (.auth1 c) = _ at hsettle
  refine ⟨session, channel, answered, openSession?_eq_some_iff.mpr hopen, hsigned, ?_, ?_⟩
  · rw [brings_frame_iff, reply_of_decode hdecode, hsettle]
    rfl
  · rw [Moment.of, react_of_decode hdecode, hsettle]

theorem turn_of_ok {h : Hosted Endpoint} {bytes : Bytes} {request : Request} {response : Response}
    (hdecode : Request.decode bytes = .ok request) (hok : (h.own.settle h.random request).result = .ok response) :
    Turn (.of h (.frame bytes)) := by
  have haccepts := accepts_iff.mpr ⟨bytes, response, rfl, hdecode, hok⟩
  have hafter : (Moment.of h (.frame bytes)).after.own = (h.own.settle h.random request).endpoint :=
    react_of_decode hdecode
  cases request with
  | select c =>
    obtain ⟨hlegal, -, hsettle⟩ := settleMove_eq_of_ok hok
    exact .selected c haccepts hlegal (hafter.trans (congrArg Outcome.endpoint hsettle))
  | controlFlow c =>
    obtain ⟨hlegal, -, hsettle⟩ := settleMove_eq_of_ok hok
    exact .noted c haccepts hlegal (hafter.trans (congrArg Outcome.endpoint hsettle))
  | auth0 c =>
    obtain ⟨hready, hversion, -, hsettle⟩ := settleAuth0_eq_of_ok hok
    exact .opened c haccepts hready hversion (offers_of_auth0 hdecode hok)
      (hafter.trans (congrArg Outcome.endpoint hsettle))
  | auth1 c =>
    obtain ⟨session, channel, answered, hopen, hsigned, hbrings, hdone⟩ := completed_of_ok hdecode hok
    exact .completed c session channel answered haccepts hopen hsigned hbrings hdone

theorem turn_of_error {h : Hosted Endpoint} {bytes : Bytes} {request : Request} {cause : ProtocolError}
    (hdecode : Request.decode bytes = .ok request) (herror : (h.own.settle h.random request).result = .error cause) :
    Turn (.of h (.frame bytes)) := by
  have hafter : (Moment.of h (.frame bytes)).after.own = (h.own.settle h.random request).endpoint :=
    react_of_decode hdecode
  have hquiet : ¬ (Moment.of h (.frame bytes)).Interrupts := by
    rintro (hdeselect | hsucceeds)
    · cases hdeselect
    · obtain ⟨request', response, hdecode', hok⟩ := succeeds_frame_iff.mp hsucceeds
      rw [hdecode, Except.ok.injEq] at hdecode'
      subst hdecode'
      rw [herror] at hok
      cases hok
  rcases settle_of_error herror with hkept | ⟨session, -, -, hstored⟩
  · exact .refused hquiet (hafter.trans (congrArg Outcome.endpoint hkept))
  · exact .unsigned session hquiet (hafter.trans (congrArg Outcome.endpoint hstored))

theorem turn_of (h : Hosted Endpoint) (s : Stimulus) : Turn (.of h s) := by
  cases s with
  | deselect =>
    obtain ⟨log, hreact⟩ := react_deselect h
    exact .deselected rfl (by rw [Moment.of, hreact])
  | frame bytes =>
    cases hdecode : Request.decode bytes with
    | ok request =>
      cases hresult : (h.own.settle h.random request).result with
      | ok response => exact turn_of_ok hdecode hresult
      | error cause => exact turn_of_error hdecode hresult
    | error cause =>
      obtain ⟨log, hreact⟩ := react_frame h bytes
      refine .refused ?_ ?_
      · rintro (hdeselect | hsucceeds)
        · cases hdeselect
        · obtain ⟨request, _, hdecode', -⟩ := succeeds_frame_iff.mp hsucceeds
          rw [hdecode] at hdecode'
          cases hdecode'
      · rw [Moment.of, hreact]
        dsimp only
        rw [reply, hdecode]

/-! ### What never changes -/

theorem Turn.versions_eq {m : Moment} (hturn : Turn m) : m.after.own.versions = m.before.own.versions := by
  cases hturn <;> rename_i hafter <;> rw [hafter] <;> rfl

theorem versions_run (h : Hosted Endpoint) (stimuli : List Stimulus) :
    (run h stimuli).own.versions = h.own.versions := by
  induction stimuli generalizing h with
  | nil => rfl
  | cons s stimuli ih => exact (ih _).trans (turn_of h s).versions_eq

end TapAccess.Endpoint
