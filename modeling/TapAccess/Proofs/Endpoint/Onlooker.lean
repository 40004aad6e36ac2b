import TapAccess.Proofs.Endpoint.Indistinguishable
import TapAccess.Proofs.Holdings

/-!
# Following an endpoint from outside

An onlooker knows the versions of an endpoint and how much it holds, and sees the frames and the answers, but no key
and nothing random. `View` is what such an onlooker knows of the endpoint at one time. From the answer to a request
the onlooker can tell why it failed, if it did (`View.cause?_settle`), and what to know of the endpoint afterwards
(`view_settle`): nothing else that the endpoint keeps has a say in either.
-/

namespace TapAccess.Endpoint

/-! ### Views -/

/-- What is known of an endpoint without its secrets. -/
structure View where
  versions : Versions
  holdings : Holdings
  phase : Phase
  /-- The reader whose AUTH1 is waited for. -/
  waiting? : Option ReaderIdentifier

def view (e : Endpoint) : View where
  versions := e.versions
  holdings := e.store.holdings
  phase := e.transaction.phase
  waiting? := (openSession? e.transaction).map (·.readerIdentifier)

namespace View

/-- Why the request fails that is answered with the given status word, if it does. Only for AUTH1 the status word is
needed: it tells a rejected signature from one that could not be made. -/
def cause? (v : View) (status : StatusWord) : Request → Option ProtocolError
  | .select _ | .controlFlow _ =>
    if Phase.Legal v.phase .selectDone then none else some (.illegalTransition v.phase .selectDone)
  | .auth0 c =>
    if v.phase ≠ .selectDone then some (.outOfOrder "SELECT")
    else if ¬ v.versions.Supports c.version then some (.unsupportedVersion c.version)
    else none
  | .auth1 _ =>
    if v.waiting? = none then some (.outOfOrder "AUTH0")
    else if status = .known .genericError then some (.invalidSignature "reader")
    else if status = .known .unspecified then some (.signing "signature error")
    else none

/-- The view after a key is shared with the reader that is waited for. -/
def sharing (v : View) : View :=
  match v.waiting? with
  | none => v
  | some reader => { v with holdings := v.holdings.withReader reader }

/-- The view after a request that failed for the given cause, or did not fail. -/
def after (v : View) : Request → Option ProtocolError → View
  | .select _, none | .controlFlow _, none => { v with phase := .selectDone, waiting? := none }
  | .auth0 c, none =>
    { v with
      phase := if c.fast then .auth0FastDone else .auth0StandardDone
      waiting? := some c.readerIdentifier }
  | .auth1 _, none => { v.sharing with phase := .auth1Done, waiting? := none }
  | .auth1 _, some (.signing _) => v.sharing
  | _, some _ => v

def deselected (v : View) : View := { v with phase := .initial, waiting? := none }

end View

/-! ### Requests -/

/-- Why a request failed, if it did. -/
def Outcome.cause? (o : Outcome) : Option ProtocolError :=
  match o.result with
  | .ok _ => none
  | .error cause => some cause

variable {e : Endpoint} {random : RandomSource} {session : Session}

theorem cause_of_make {privateKey : PrivateKey} {message : Bytes} {cause : ProtocolError}
    (hmade : Signature.make privateKey message = .error cause) : cause = .signing "signature error" := by
  unfold Signature.make at hmade
  generalize Signature.sign? privateKey message = signed at hmade
  cases signed with
  | none => exact (Except.error.inj hmade).symm
  | some signature => cases hmade

theorem countersigned_cases (session : Session) (keys : ChannelKeys) :
    countersigned session keys = .error (.signing "signature error") ∨
      ∃ channel sealed, countersigned session keys = .ok (channel, ⟨.known .ok, sealed⟩) := by
  cases hmade : Signature.make session.credential.keyPair.privateKey
      (session.handshake.authenticationData .endpoint) with
  | ok signature =>
    obtain ⟨channel, sealed, hsigned, -⟩ := exists_countersigned keys hmade
    exact Or.inr ⟨channel, sealed, hsigned⟩
  | error cause =>
    left
    unfold countersigned
    rw [hmade, cause_of_make hmade]
    rfl

/-- The three ways that AUTH1 goes in an open session. -/
theorem settle_open_cases (hopen : openSession? e.transaction = some session) (random : RandomSource)
    (c : Auth1Command) :
    e.settle random (.auth1 c) = ⟨.error (.invalidSignature "reader"), e, random⟩ ∨
    e.settle random (.auth1 c) = ⟨.error (.signing "signature error"), e.withSharedKey session, random⟩ ∨
    ∃ channel sealed, e.settle random (.auth1 c) = ⟨.ok (.ok sealed),
      { e.withSharedKey session with transaction := .auth1Done { session with channel } }, random⟩ := by
  cases hverify : Signature.verify (e.store.groupKey session.readerIdentifier.group)
      (session.handshake.authenticationData .reader) c.readerSignature.toList with
  | false => exact Or.inl (settle_of_forged hopen hverify)
  | true =>
    have hsettle : e.settle random (.auth1 c) = e.settleSession random c session :=
      settleAuth1_of_open (openSession?_eq_some_iff.mp hopen)
    rcases countersigned_cases session ((session.derivation e.versions.encode).channelKeys session.secret) with
      hunsigned | ⟨channel, sealed, hsigned⟩
    · right; left
      rw [hsettle, settleSession, if_neg (not_not_intro hverify), hunsigned, settleAnswer]
    · right; right
      exact ⟨channel, sealed, hsettle.trans (settleSession_of_verify hverify hsigned)⟩

theorem waiting?_of_open (hopen : openSession? e.transaction = some session) :
    e.view.waiting? = some session.readerIdentifier := by
  rw [view, hopen, Option.map_some]

theorem waiting?_of_closed (hclosed : openSession? e.transaction = none) : e.view.waiting? = none := by
  rw [view, hclosed, Option.map_none]

theorem view_withSharedKey (hopen : openSession? e.transaction = some session) :
    (e.withSharedKey session).view = e.view.sharing := by
  have hstored : (e.withSharedKey session).store.holdings = e.store.holdings.withReader session.readerIdentifier :=
    CredentialStore.holdings_putPersistentKey _ _ _
  have hwaiting : (openSession? (e.withSharedKey session).transaction).map (·.readerIdentifier) =
      some session.readerIdentifier := waiting?_of_open hopen
  rw [View.sharing, waiting?_of_open hopen, view, hstored, hwaiting]
  rfl

theorem cause?_settleMove (e : Endpoint) (random : RandomSource) (target : Transaction) (answered : Response) :
    (e.settleMove random target answered).cause? =
      if Phase.Legal e.transaction.phase target.phase then none
      else some (.illegalTransition e.transaction.phase target.phase) := by
  unfold settleMove
  by_cases hlegal : Phase.Legal e.transaction.phase target.phase
  · rw [if_pos hlegal, if_pos hlegal, Outcome.cause?]
  · rw [if_neg hlegal, if_neg hlegal, Outcome.cause?]

theorem cause?_settleAuth0 (e : Endpoint) (random : RandomSource) (c : Auth0Command) :
    (e.settleAuth0 random c).cause? =
      if e.transaction.phase ≠ .selectDone then some (.outOfOrder "SELECT")
      else if ¬ e.versions.Supports c.version then some (.unsupportedVersion c.version)
      else none := by
  unfold settleAuth0
  by_cases hphase : e.transaction.phase ≠ .selectDone
  · rw [if_pos hphase, if_pos hphase, Outcome.cause?]
  by_cases hversion : ¬ e.versions.Supports c.version
  · rw [if_neg hphase, if_pos hversion, if_neg hphase, if_pos hversion, Outcome.cause?]
  · rw [if_neg hphase, if_neg hversion, if_neg hphase, if_neg hversion, Outcome.cause?]

/-- The onlooker tells from the status word why a request failed. -/
theorem View.cause?_settle (e : Endpoint) (random : RandomSource) (request : Request) :
    e.view.cause? (e.settle random request).response.status request = (e.settle random request).cause? := by
  cases request with
  | select c => exact (cause?_settleMove e random .selectDone _).symm
  | controlFlow c => exact (cause?_settleMove e random .selectDone _).symm
  | auth0 c => exact (cause?_settleAuth0 e random c).symm
  | auth1 c =>
    rw [cause?]
    cases hopen : openSession? e.transaction with
    | none =>
      rw [settle_of_closed hopen, if_pos (waiting?_of_closed hopen), Outcome.cause?]
    | some session =>
      have hwaiting : e.view.waiting? ≠ none := by simp [waiting?_of_open hopen]
      rw [if_neg hwaiting]
      rcases settle_open_cases hopen random c with hsettle | hsettle | ⟨channel, sealed, hsettle⟩
      · rw [hsettle]
        rfl
      · rw [hsettle]
        rfl
      · rw [hsettle]
        rfl

theorem view_settleMove (e : Endpoint) (random : RandomSource) (answered : Response) {request : Request}
    (hmoved : e.view.after request none = { e.view with phase := .selectDone, waiting? := none })
    (hkept : ∀ cause, e.view.after request (some cause) = e.view) :
    (e.settleMove random .selectDone answered).endpoint.view =
      e.view.after request (e.settleMove random .selectDone answered).cause? := by
  cases hresult : (e.settleMove random .selectDone answered).result with
  | ok response =>
    rw [(settleMove_eq_of_ok hresult).2.2, Outcome.cause?, hmoved]
    rfl
  | error cause => rw [settleMove_of_error hresult, Outcome.cause?, hkept]

theorem view_openedTransaction (e : Endpoint) (random : RandomSource) (c : Auth0Command) :
    view { e with transaction := e.openedTransaction c (e.freshSession random c) } =
      e.view.after (.auth0 c) none := by
  rw [openedTransaction, View.after]
  by_cases hfast : c.fast
  · rw [if_pos hfast, if_pos hfast]
    rfl
  · rw [if_neg hfast, if_neg hfast]
    rfl

/-- The onlooker's view follows the endpoint. -/
theorem view_settle (e : Endpoint) (random : RandomSource) (request : Request) :
    (e.settle random request).endpoint.view = e.view.after request (e.settle random request).cause? := by
  cases request with
  | select c => exact view_settleMove e random _ rfl fun _ => rfl
  | controlFlow c => exact view_settleMove e random _ rfl fun _ => rfl
  | auth0 c =>
    rw [settle]
    cases hresult : (e.settleAuth0 random c).result with
    | ok response =>
      rw [(settleAuth0_eq_of_ok hresult).2.2.2]
      exact view_openedTransaction e random c
    | error cause =>
      rw [settleAuth0_of_error hresult]
      rfl
  | auth1 c =>
    cases hopen : openSession? e.transaction with
    | none =>
      rw [settle_of_closed hopen]
      rfl
    | some session =>
      have hshared := view_withSharedKey hopen
      rcases settle_open_cases hopen random c with hsettle | hsettle | ⟨channel, sealed, hsettle⟩
      · rw [hsettle]
        rfl
      · rw [hsettle]
        exact hshared
      · rw [hsettle]
        show _ = { e.view.sharing with phase := .auth1Done, waiting? := none }
        rw [← hshared]
        rfl

end TapAccess.Endpoint
