import TapAccess.Proofs.Apdu.Frames
import TapAccess.Proofs.Endpoint.Countersignature

/-!
# Requests that succeed and requests that fail

A request that succeeds has met every condition of its command, and the endpoint afterwards is known in full:
`settleMove_eq_of_ok` for SELECT and CONTROL_FLOW, `settleAuth0_eq_of_ok` for AUTH0 and `settleAuth1_eq_of_ok` for
AUTH1. A request that fails leaves everything as it was, except that an AUTH1 that the endpoint cannot answer has
its shared key kept (`settle_of_error`). Only what succeeds is answered with the status word of success.
-/

namespace TapAccess.Endpoint

/-! ### Success -/

variable {e : Endpoint} {random : RandomSource} {response : Response}

theorem legal_selectDone_iff {phase : Phase} : Phase.Legal phase .selectDone ↔ phase ≠ .auth0StandardDone := by
  cases phase <;> decide

theorem settleMove_of_legal {target : Transaction} (answered : Response) (random : RandomSource)
    (hlegal : Phase.Legal e.transaction.phase target.phase) :
    e.settleMove random target answered = ⟨.ok answered, { e with transaction := target }, random⟩ := by
  rw [settleMove, if_pos hlegal]

theorem settleMove_eq_of_ok {target : Transaction} {answered : Response}
    (hok : (e.settleMove random target answered).result = .ok response) :
    Phase.Legal e.transaction.phase target.phase ∧ response = answered ∧
      e.settleMove random target answered = ⟨.ok answered, { e with transaction := target }, random⟩ := by
  by_cases hlegal : Phase.Legal e.transaction.phase target.phase
  · have hsettle := settleMove_of_legal answered random hlegal
    rw [hsettle] at hok
    exact ⟨hlegal, (Except.ok.inj hok).symm, hsettle⟩
  · rw [settleMove, if_neg hlegal] at hok
    cases hok

theorem settleAuth0_of_ready {c : Auth0Command} (random : RandomSource) (hphase : e.transaction.phase = .selectDone)
    (hversion : e.versions.Supports c.version) :
    e.settleAuth0 random c = ⟨.ok (e.openedResponse c (e.freshSession random c)).toResponse,
      { e with transaction := e.openedTransaction c (e.freshSession random c) },
      (e.choice random.keyPair.2 c.readerIdentifier.group).2⟩ := by
  unfold settleAuth0
  rw [if_neg (not_not_intro hphase), if_neg (not_not_intro hversion)]

theorem settleAuth0_eq_of_ok {c : Auth0Command} (hok : (e.settleAuth0 random c).result = .ok response) :
    e.transaction.phase = .selectDone ∧ e.versions.Supports c.version ∧
      response = (e.openedResponse c (e.freshSession random c)).toResponse ∧
      e.settleAuth0 random c = ⟨.ok (e.openedResponse c (e.freshSession random c)).toResponse,
        { e with transaction := e.openedTransaction c (e.freshSession random c) },
        (e.choice random.keyPair.2 c.readerIdentifier.group).2⟩ := by
  have hready : e.transaction.phase = .selectDone ∧ e.versions.Supports c.version := by
    unfold settleAuth0 at hok
    by_cases hphase : e.transaction.phase ≠ .selectDone
    · rw [if_pos hphase] at hok
      cases hok
    by_cases hversion : ¬ e.versions.Supports c.version
    · rw [if_neg hphase, if_pos hversion] at hok
      cases hok
    exact ⟨Decidable.not_not.mp hphase, Decidable.not_not.mp hversion⟩
  have hsettle := settleAuth0_of_ready random hready.1 hready.2
  rw [hsettle] at hok
  exact ⟨hready.1, hready.2, (Except.ok.inj hok).symm, hsettle⟩

theorem settleAuth1_of_open {c : Auth1Command} {session : Session}
    (hopen : e.transaction = .auth0FastDone session ∨ e.transaction = .auth0StandardDone session) :
    e.settleAuth1 random c = e.settleSession random c session := by
  unfold settleAuth1
  rcases hopen with hopen | hopen
  · rw [hopen]
  · rw [hopen]

theorem settleSession_of_verify {c : Auth1Command} {session : Session} {channel : Channel}
    {answered : Auth1Response}
    (hverify : Signature.verify (e.store.groupKey session.readerIdentifier.group)
      (session.handshake.authenticationData .reader) c.readerSignature.toList = true)
    (hsigned : countersigned session ((session.derivation e.versions.encode).channelKeys session.secret)
      = .ok (channel, answered)) :
    e.settleSession random c session = ⟨.ok answered.toResponse,
      { (e.withSharedKey session) with transaction := .auth1Done { session with channel } }, random⟩ := by
  rw [settleSession, if_neg (not_not_intro hverify), hsigned, settleAnswer]

theorem settleSession_eq_of_ok {c : Auth1Command} {session : Session}
    (hok : (e.settleSession random c session).result = .ok response) :
    ∃ channel answered, Signature.verify (e.store.groupKey session.readerIdentifier.group)
        (session.handshake.authenticationData .reader) c.readerSignature.toList = true ∧
      countersigned session ((session.derivation e.versions.encode).channelKeys session.secret)
        = .ok (channel, answered) ∧
      response = answered.toResponse ∧
      e.settleSession random c session = ⟨.ok answered.toResponse,
        { (e.withSharedKey session) with transaction := .auth1Done { session with channel } }, random⟩ := by
  unfold settleSession at hok
  by_cases hverify : ¬ Signature.verify (e.store.groupKey session.readerIdentifier.group)
      (session.handshake.authenticationData .reader) c.readerSignature.toList = true
  · rw [if_pos hverify] at hok
    cases hok
  rw [if_neg hverify] at hok
  cases hsigned : countersigned session ((session.derivation e.versions.encode).channelKeys session.secret) with
  | error cause =>
    rw [hsigned] at hok
    cases hok
  | ok both =>
    have hverified := Decidable.not_not.mp hverify
    rw [hsigned] at hok
    exact ⟨both.1, both.2, hverified, rfl, (Except.ok.inj hok).symm, settleSession_of_verify hverified hsigned⟩

theorem settleAuth1_eq_of_ok {c : Auth1Command} (hok : (e.settleAuth1 random c).result = .ok response) :
    ∃ session channel answered,
      (e.transaction = .auth0FastDone session ∨ e.transaction = .auth0StandardDone session) ∧
      Signature.verify (e.store.groupKey session.readerIdentifier.group)
        (session.handshake.authenticationData .reader) c.readerSignature.toList = true ∧
      countersigned session ((session.derivation e.versions.encode).channelKeys session.secret)
        = .ok (channel, answered) ∧
      response = answered.toResponse ∧
      e.settleAuth1 random c = ⟨.ok answered.toResponse,
        { (e.withSharedKey session) with transaction := .auth1Done { session with channel } }, random⟩ := by
  unfold settleAuth1 at hok ⊢
  cases htransaction : e.transaction with
  | initial => rw [htransaction] at hok; cases hok
  | selectDone => rw [htransaction] at hok; cases hok
  | auth1Done session => rw [htransaction] at hok; cases hok
  | auth0FastDone session =>
    rw [htransaction] at hok
    obtain ⟨channel, answered, hrest⟩ := settleSession_eq_of_ok hok
    exact ⟨session, channel, answered, Or.inl rfl, hrest⟩
  | auth0StandardDone session =>
    rw [htransaction] at hok
    obtain ⟨channel, answered, hrest⟩ := settleSession_eq_of_ok hok
    exact ⟨session, channel, answered, Or.inr rfl, hrest⟩

theorem isSuccess_of_settle {request : Request} (hok : (e.settle random request).result = .ok response) :
    response.IsSuccess := by
  cases request with
  | select c => rw [(settleMove_eq_of_ok hok).2.1]; rfl
  | controlFlow c => rw [(settleMove_eq_of_ok hok).2.1]; rfl
  | auth0 c => rw [(settleAuth0_eq_of_ok hok).2.2.1]; rfl
  | auth1 c =>
    obtain ⟨session, channel, answered, -, -, hsigned, rfl, -⟩ := settleAuth1_eq_of_ok hok
    exact status_of_countersigned hsigned

/-! ### Failure -/

variable {cause : ProtocolError}

theorem settleMove_of_error {target : Transaction} {answered : Response}
    (herror : (e.settleMove random target answered).result = .error cause) :
    e.settleMove random target answered = ⟨.error cause, e, random⟩ := by
  unfold settleMove at herror ⊢
  split at herror
  · cases herror
  · next hillegal => rw [if_neg hillegal, Except.error.inj herror]

theorem settleAuth0_of_error {c : Auth0Command} (herror : (e.settleAuth0 random c).result = .error cause) :
    e.settleAuth0 random c = ⟨.error cause, e, random⟩ := by
  unfold settleAuth0 at herror ⊢
  split at herror
  · next hphase => rw [if_pos hphase, Except.error.inj herror]
  · next hphase =>
    rw [if_neg hphase]
    split at herror
    · next hversion => rw [if_pos hversion, Except.error.inj herror]
    · cases herror

theorem settleSession_of_error {c : Auth1Command} {session : Session}
    (herror : (e.settleSession random c session).result = .error cause) :
    e.settleSession random c session = ⟨.error cause, e, random⟩ ∨
      countersigned session ((session.derivation e.versions.encode).channelKeys session.secret) = .error cause ∧
      e.settleSession random c session = ⟨.error cause, e.withSharedKey session, random⟩ := by
  unfold settleSession at herror ⊢
  split at herror
  · next hforged =>
    rw [if_pos hforged, Except.error.inj herror]
    exact Or.inl rfl
  · next hverified =>
    rw [if_neg hverified]
    generalize countersigned session ((session.derivation e.versions.encode).channelKeys session.secret)
      = signed at herror ⊢
    cases signed with
    | ok both => cases herror
    | error _ =>
      cases herror
      exact Or.inr ⟨rfl, rfl⟩

theorem settleAuth1_of_error {c : Auth1Command} (herror : (e.settleAuth1 random c).result = .error cause) :
    e.settleAuth1 random c = ⟨.error cause, e, random⟩ ∨
      ∃ session, (e.transaction = .auth0FastDone session ∨ e.transaction = .auth0StandardDone session) ∧
        countersigned session ((session.derivation e.versions.encode).channelKeys session.secret) = .error cause ∧
        e.settleAuth1 random c = ⟨.error cause, e.withSharedKey session, random⟩ := by
  unfold settleAuth1 at herror ⊢
  cases htransaction : e.transaction with
  | initial | selectDone | auth1Done session =>
    rw [htransaction] at herror
    exact Or.inl (by rw [← Except.error.inj herror])
  | auth0FastDone session =>
    rw [htransaction] at herror
    exact (settleSession_of_error herror).imp_right fun hunsigned => ⟨session, Or.inl rfl, hunsigned⟩
  | auth0StandardDone session =>
    rw [htransaction] at herror
    exact (settleSession_of_error herror).imp_right fun hunsigned => ⟨session, Or.inr rfl, hunsigned⟩

/-- A request that fails leaves everything as it was, unless it is an AUTH1 that the endpoint cannot answer: then
the shared key is kept all the same. -/
theorem settle_of_error {request : Request} (herror : (e.settle random request).result = .error cause) :
    e.settle random request = ⟨.error cause, e, random⟩ ∨
      ∃ session, (e.transaction = .auth0FastDone session ∨ e.transaction = .auth0StandardDone session) ∧
        countersigned session ((session.derivation e.versions.encode).channelKeys session.secret) = .error cause ∧
        e.settle random request = ⟨.error cause, e.withSharedKey session, random⟩ := by
  cases request with
  | select c => exact Or.inl (settleMove_of_error herror)
  | controlFlow c => exact Or.inl (settleMove_of_error herror)
  | auth0 c => exact Or.inl (settleAuth0_of_error herror)
  | auth1 c => exact settleAuth1_of_error herror

theorem transaction_settle_of_error {request : Request}
    (herror : (e.settle random request).result = .error cause) :
    (e.settle random request).endpoint.transaction = e.transaction := by
  rcases settle_of_error herror with hkept | ⟨session, -, -, hstored⟩
  · rw [hkept]
  · rw [hstored]
    rfl

theorem responseCode_ne_ok (cause : ProtocolError) : cause.responseCode ≠ .ok := by
  cases cause <;> simp [ProtocolError.responseCode]

theorem isSuccess_response_iff {request : Request} :
    (e.settle random request).response.IsSuccess ↔
      ∃ response, (e.settle random request).result = .ok response := by
  unfold Outcome.response
  cases hresult : (e.settle random request).result with
  | ok response =>
    have hsuccess := isSuccess_of_settle hresult
    exact ⟨fun _ => ⟨response, rfl⟩, fun _ => hsuccess⟩
  | error cause =>
    constructor
    · intro hsuccess
      exact absurd (StatusWord.known.inj hsuccess) (responseCode_ne_ok cause)
    · rintro ⟨response, hok⟩
      cases hok

/-! ### Replies -/

theorem reply_of_decode {bytes : Bytes} {request : Request} (hdecode : Request.decode bytes = .ok request) :
    e.reply random bytes = ⟨(e.settle random request).response, (e.settle random request).endpoint,
      (e.settle random request).random⟩ := by
  rw [reply, hdecode]

theorem canonical_reply (e : Endpoint) (random : RandomSource) (bytes : Bytes) :
    (e.reply random bytes).response.status.Canonical := by
  unfold reply
  cases Request.decode bytes with
  | error cause => exact StatusWord.canonical_known _
  | ok request =>
    dsimp only
    unfold Outcome.response
    cases hresult : (e.settle random request).result with
    | error cause => exact StatusWord.canonical_known _
    | ok response =>
      have hsuccess : response.status = .known .ok := isSuccess_of_settle hresult
      dsimp only
      rw [hsuccess]
      exact StatusWord.canonical_known _

end TapAccess.Endpoint
