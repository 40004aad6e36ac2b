import TapAccess.Proofs.Endpoint.Onlooker
import TapAccess.Proofs.Log

/-!
# The log follows from the answers

`View.transcript` is what an endpoint logs while it answers a frame, written down by an onlooker who has seen the
frame and the answer (`answer_logs`). As the onlooker's view follows the endpoint, all that is ever logged can be
written down from outside (`log_run`). So the logs of two endpoints that hold equally much differ only where their
answers do, whatever their keys are (`log_follows_answers`).
-/

namespace TapAccess.Endpoint

open TapAccess.Action

/-! ### Events -/

/-- What is logged when something is looked up: nothing, or that it is not there. -/
def missing (known : Prop) [Decidable known] (complaint : String) : List Event :=
  if known then [] else [⟨.debug, complaint⟩]

/-- What is logged when a transaction is to move on. -/
def transition (source target : Phase) : Event :=
  if Phase.Legal source target then ⟨.debug, "transaction state " ++ source.name ++ " -> " ++ target.name⟩
  else ⟨.warn, "rejected transition from " ++ source.name ++ " to " ++ target.name⟩

/-- What is logged when a frame is read. -/
def reading (frame : Bytes) : List Event :=
  ⟨.debug, "APDU: " ++ Hex.encodeUpper frame⟩ ::
    match Command.decode frame with
    | .ok command => [⟨.debug, command.summary⟩]
    | .error cause => (cause.details?.map (⟨.error, ·⟩)).toList

/-- What is logged when something fails. -/
def refusal (what : String) (cause : ProtocolError) : Event :=
  ⟨.error, what ++ ": " ++ cause.message ++ ", responding " ++ Hex.prefixed16 cause.responseCode.value⟩

namespace View

/-- What is logged about AUTH0 once its keys and its credential are drawn. -/
def establishing (v : View) (c : Auth0Command) : List Event :=
  if c.fast then
    ⟨.debug, "processing AUTH0 as a fast transaction"⟩ ::
      ((missing (c.readerIdentifier.group ∈ v.holdings.groups) "unknown reader group, using dummy reader group" ++
        ⟨.debug, "database status: " ++ v.holdings.summary⟩ ::
          missing (c.readerIdentifier ∈ v.holdings.readers)
            "no persistent key for reader, using dummy persistent key") ++
        [transition v.phase .auth0FastDone])
  else [⟨.debug, "processing AUTH0 as a standard transaction"⟩, transition v.phase .auth0StandardDone]

/-- What is logged about an AUTH0 that opens a session. -/
def opening (v : View) (c : Auth0Command) : List Event :=
  missing (v.holdings.credentials c.readerIdentifier.group ≠ 0)
    "no endpoint enrolled for reader group, using dummy endpoint" ++ v.establishing c

/-- What is logged about AUTH1 in a session with the reader. -/
def closing (v : View) (reader : ReaderIdentifier) (cause? : Option ProtocolError) : List Event :=
  missing (reader.group ∈ v.holdings.groups) "unknown reader group, verifying against dummy reader group" ++
    match cause? with
    | some (.invalidSignature _) => [⟨.error, "invalid reader signature"⟩]
    | _ =>
      [⟨.debug, "reader signature is valid"⟩, ⟨.debug, "storing persistent key for reader " ++ reader.shown⟩] ++
        if cause?.isNone then [transition v.phase .auth1Done, ⟨.debug, "AUTH1 complete"⟩] else []

/-- What is logged while a request is acted on that fails for the given cause, or does not fail. -/
def acting (v : View) : Request → Option ProtocolError → List Event
  | .select c, _ =>
    (if c.aid ≠ SelectCommand.accessAid then [⟨.warn, "SELECT for foreign AID " ++ Hex.encode c.aid⟩] else []) ++
      [transition v.phase .selectDone]
  | .auth0 c, none => v.opening c
  | .auth0 _, some _ => []
  | .auth1 _, cause? =>
    match v.waiting? with
    | none => []
    | some reader => v.closing reader cause?
  | .controlFlow c, _ =>
    [⟨.debug, "CONTROL_FLOW S1=" ++ Hex.byte c.s1 ++ " S2=" ++ Hex.byte c.s2⟩, transition v.phase .selectDone]

/-- What is logged about the request in a frame, if there is one. -/
def responding (v : View) (frame : Bytes) (status : StatusWord) : List Event :=
  match Request.decode frame with
  | .error cause => [refusal "could not parse command APDU" cause]
  | .ok request =>
    let cause? := v.cause? status request
    v.acting request cause? ++ (cause?.map (refusal (request.instruction.name ++ " failed"))).toList

/-- What is logged while a frame is answered. -/
def transcript (v : View) (frame : Bytes) (response : Response) : List Event :=
  reading frame ++ (v.responding frame response.status ++ [⟨.debug, "response: " ++ Hex.encode response.payload⟩])

end View

/-! ### What the steps log -/

variable {h : Hosted Endpoint}

theorem moveTo_logs (target : Transaction) :
    Logs (onTransaction (Transaction.moveTo target)) h [transition h.own.transaction.phase target.phase] := by
  refine logs_within (logs_bind_own fun _ => ?_)
  dsimp only
  unfold transition
  by_cases hlegal : Phase.Legal h.own.transaction.phase target.phase
  · rw [if_pos hlegal, if_pos hlegal]
    exact logs_bind_record fun _ => logs_update _
  · rw [if_neg hlegal, if_neg hlegal]
    exact logs_bind_record fun _ => logs_throw _

theorem missing_eq {α : Type} {found : Option α} {known : Prop} [Decidable known] (hknown : found.isSome ↔ known)
    (complaint : String) : missing known complaint = if found.isSome then [] else [⟨.debug, complaint⟩] := by
  simp only [missing, hknown]

theorem groupKey_logs (group : Identifier) (complaint : String) :
    Logs (Endpoint.groupKey group complaint) h (missing (group ∈ h.own.store.holdings.groups) complaint) := by
  refine logs_bind_own fun _ => ?_
  rw [missing_eq (h.own.store.isSome_findGroup group)]
  dsimp only
  cases h.own.store.findGroup group with
  | some known => exact logs_pure _
  | none => exact logs_bind_record fun _ => logs_pure _

theorem persistentKey_logs (reader : ReaderIdentifier) :
    Logs (Endpoint.persistentKey reader) h (missing (reader ∈ h.own.store.holdings.readers)
      "no persistent key for reader, using dummy persistent key") := by
  refine logs_bind_own fun _ => ?_
  rw [missing_eq (h.own.store.isSome_findPersistentKey reader)]
  dsimp only
  cases h.own.store.findPersistentKey reader with
  | some known => exact logs_pure _
  | none => exact logs_bind_record fun _ => logs_pure _

theorem chooseCredential_logs (group : Identifier) :
    Logs (chooseCredential group) h (missing (h.own.store.holdings.credentials group ≠ 0)
      "no endpoint enrolled for reader group, using dummy endpoint") := by
  refine logs_bind_own fun _ => ?_
  have hnone := h.own.store.findCredentials_eq_nil_iff group
  have hdraw {h : Hosted Endpoint} {credentials : List Credential} {dummy : Credential} :
      Logs (do
        let chosen ← Action.draw fun r => r.choose? credentials
        return chosen.getD dummy : Action ProtocolError Endpoint Credential) h [] :=
    logs_bind_quiet (yields_draw _) (logs_draw _) fun _ => logs_pure _
  dsimp only
  by_cases hempty : h.own.store.findCredentials group = []
  · rw [if_pos hempty, missing, if_neg (not_not_intro (hnone.mp hempty))]
    exact logs_bind_record fun _ => hdraw
  · rw [if_neg hempty, missing, if_pos (fun hzero => hempty (hnone.mpr hzero))]
    exact hdraw

theorem fastDerivation_logs (hformed : h.own.store.WellFormed) (c : Auth0Command) (session : Session) :
    Logs (fastDerivation c session) h
      (missing (c.readerIdentifier.group ∈ h.own.store.holdings.groups)
          "unknown reader group, using dummy reader group" ++
        ⟨.debug, "database status: " ++ h.own.store.holdings.summary⟩ ::
          missing (c.readerIdentifier ∈ h.own.store.holdings.readers)
            "no persistent key for reader, using dummy persistent key") := by
  rw [← CredentialStore.summary_eq hformed]
  exact logs_bind (groupKey_yields _ _) (groupKey_logs _ _) fun _ => logs_bind_own fun _ =>
    logs_bind_record fun _ => logs_bind_last (persistentKey_logs _) fun _ _ => logs_bind_own fun _ => logs_pure _

/-! ### What requests log -/

theorem move_logs {target : Transaction} {rest : Unit → Action ProtocolError Endpoint Response} {events : List Event}
    (hlegal : Phase.Legal h.own.transaction.phase target.phase)
    (hrest : ∀ log, Logs (rest ()) ⟨{ h.own with transaction := target }, h.random, log⟩ events) :
    Logs (onTransaction (Transaction.moveTo target) >>= rest) h
      (transition h.own.transaction.phase target.phase :: events) :=
  logs_bind_one (moveTo_yields_ok hlegal) (moveTo_logs target) hrest

theorem select_logs (c : SelectCommand) (cause? : Option ProtocolError) :
    Logs (Endpoint.select c) h (h.own.view.acting (.select c) cause?) := by
  unfold Endpoint.select
  show Logs _ h ((if c.aid ≠ SelectCommand.accessAid then _ else _) ++ _)
  by_cases hforeign : c.aid ≠ SelectCommand.accessAid
  · rw [if_pos hforeign, if_pos hforeign]
    exact logs_bind_record fun _ => logs_bind_last (moveTo_logs _) fun _ _ => logs_bind_own fun _ => logs_pure _
  · rw [if_neg hforeign, if_neg hforeign]
    exact logs_bind_last (moveTo_logs _) fun _ _ => logs_bind_own fun _ => logs_pure _

theorem controlFlow_logs (c : ControlFlowCommand) (cause? : Option ProtocolError) :
    Logs (Endpoint.controlFlow c) h (h.own.view.acting (.controlFlow c) cause?) :=
  logs_bind_record fun _ => logs_bind_last (moveTo_logs _) fun _ _ => logs_pure _

theorem openSession_logs (hformed : h.own.store.WellFormed) {c : Auth0Command} (session : Session)
    (hready : h.own.transaction.phase = .selectDone) :
    Logs (if c.fast then do
        Action.debug "processing AUTH0 as a fast transaction"
        let derivation ← fastDerivation c session
        onTransaction (Transaction.moveTo
          (.auth0FastDone { session with channel := .new (some derivation.keys) }))
        return (Auth0Response.mk session.endpointEphemeral.publicKey (some derivation.cryptogram)).toResponse
      else do
        Action.debug "processing AUTH0 as a standard transaction"
        onTransaction (Transaction.moveTo (.auth0StandardDone session))
        return (Auth0Response.mk session.endpointEphemeral.publicKey none).toResponse)
      h (h.own.view.establishing c) := by
  unfold View.establishing
  by_cases hfast : c.fast = true
  · rw [if_pos hfast, if_pos hfast]
    refine logs_bind_record fun log => logs_bind (fastDerivation_yields c _)
      (fastDerivation_logs (h := ⟨h.own, h.random, log⟩) hformed c _) fun _ => move_logs ?_ fun _ => logs_pure _
    show Phase.Legal h.own.transaction.phase .auth0FastDone
    rw [hready]
    decide
  · rw [if_neg hfast, if_neg hfast]
    refine logs_bind_record fun _ => move_logs ?_ fun _ => logs_pure _
    show Phase.Legal h.own.transaction.phase .auth0StandardDone
    rw [hready]
    decide

theorem auth0_logs (hformed : h.own.store.WellFormed) (c : Auth0Command) :
    Logs (Endpoint.auth0 c) h (h.own.view.acting (.auth0 c) (h.own.settleAuth0 h.random c).cause?) := by
  refine logs_bind_own fun log => ?_
  rw [cause?_settleAuth0]
  by_cases hphase : h.own.transaction.phase ≠ .selectDone
  · rw [if_pos hphase, if_pos hphase]
    exact logs_throw _
  rw [if_neg hphase, if_neg hphase]
  by_cases hversion : ¬ h.own.versions.Supports c.version
  · rw [if_pos hversion, if_pos hversion]
    exact logs_throw _
  rw [if_neg hversion, if_neg hversion]
  have hready : h.own.transaction.phase = .selectDone := Decidable.not_not.mp hphase
  have hdraw {log : List Event} : Yields (Action.draw RandomSource.keyPair) ⟨h.own, h.random, log⟩
    (.ok h.random.keyPair.1 : Except ProtocolError _) h.own h.random.keyPair.2 := yields_draw _
  -- what is drawn stands for itself, so that nothing looks into the draw
  generalize h.random.keyPair = drawn at hdraw
  exact logs_bind_quiet hdraw (logs_draw _) fun _ =>
    logs_bind (chooseCredential_yields _) (chooseCredential_logs _) fun log =>
      openSession_logs (h := ⟨h.own, _, log⟩) hformed (sessionOf c drawn.1 _) hready

/-- What is logged when the endpoint's answer to AUTH1 is made, or cannot be made. -/
def countersigning (source : Phase) : Except ProtocolError (Channel × Auth1Response) → List Event
  | .ok _ => [transition source .auth1Done, ⟨.debug, "AUTH1 complete"⟩]
  | .error _ => []

theorem countersign_logs {session : Session} {keys : ChannelKeys}
    (hlegal : Phase.Legal h.own.transaction.phase .auth1Done) :
    Logs (do
      let endpointSignature ← Action.ofExcept (Signature.make session.credential.keyPair.privateKey
        (session.handshake.authenticationData .endpoint))
      let message : Auth1Plaintext :=
        { endpointSignature, endpointKey := some session.credential.publicKey, keySlot := none }
      let (channel, response) ← Action.ofExcept
        (Auth1Response.encrypt (session.channel.withKeys keys) message)
      onTransaction (Transaction.moveTo (.auth1Done { session with channel }))
      Action.debug "AUTH1 complete"
      return response.toResponse) h
      (countersigning h.own.transaction.phase (countersigned session keys)) := by
  unfold countersigned
  generalize session.channel.withKeys keys = channel
  have hsign (log : List Event) := yields_ofExcept (h := ⟨h.own, h.random, log⟩)
    (Signature.make session.credential.keyPair.privateKey (session.handshake.authenticationData .endpoint))
  generalize Signature.make session.credential.keyPair.privateKey
    (session.handshake.authenticationData .endpoint) = signed at hsign ⊢
  cases signed with
  | error e => exact logs_bind_error (hsign h.log) (logs_ofExcept _)
  | ok endpointSignature =>
    refine logs_bind_quiet (hsign h.log) (logs_ofExcept _) fun _ => ?_
    show Logs _ _ (countersigning _ (Auth1Response.encrypt channel
      { endpointSignature, endpointKey := some session.credential.publicKey, keySlot := none }))
    have hencrypt {log : List Event} := yields_ofExcept (h := ⟨h.own, h.random, log⟩)
      (Auth1Response.encrypt channel
        { endpointSignature, endpointKey := some session.credential.publicKey, keySlot := none })
    dsimp only
    generalize Auth1Response.encrypt channel
      { endpointSignature, endpointKey := some session.credential.publicKey, keySlot := none } = encrypted
      at hencrypt ⊢
    cases encrypted with
    | error e => exact logs_bind_error hencrypt (logs_ofExcept _)
    | ok both =>
      exact logs_bind_quiet hencrypt (logs_ofExcept _) fun _ => move_logs hlegal fun _ =>
        logs_bind_record fun _ => logs_pure _

/-- The onlooker tells an answer that was made from one that could not be made. -/
theorem closing_settleAnswer (v : View) (reader : ReaderIdentifier) (e : Endpoint) (random : RandomSource)
    (session : Session) (keys : ChannelKeys) :
    v.closing reader (e.settleAnswer random session (countersigned session keys)).cause? =
      missing (reader.group ∈ v.holdings.groups) "unknown reader group, verifying against dummy reader group" ++
        ⟨.debug, "reader signature is valid"⟩ :: ⟨.debug, "storing persistent key for reader " ++ reader.shown⟩ ::
          countersigning v.phase (countersigned session keys) := by
  rcases countersigned_cases session keys with hsigned | ⟨channel, sealed, hsigned⟩
  · rw [hsigned]
    rfl
  · rw [hsigned]
    rfl

theorem session_logs {session : Session} (c : Auth1Command)
    (hopen : openSession h = .ok session h) (hlegal : Phase.Legal h.own.transaction.phase .auth1Done) :
    Logs (Endpoint.auth1 c) h
      (h.own.view.closing session.readerIdentifier (h.own.settleSession h.random c session).cause?) := by
  have hsession : Yields openSession h (.ok session) h.own h.random := ⟨h.log, outcome_ok hopen⟩
  have hquiet : Logs openSession h [] := by rw [Logs, outcome_ok hopen, List.append_nil]
  refine logs_bind_quiet hsession hquiet fun _ => ?_
  rw [settleSession]
  cases hverify : Signature.verify (h.own.store.groupKey session.readerIdentifier.group)
      (session.handshake.authenticationData .reader) c.readerSignature.toList with
  | false =>
    rw [if_pos Bool.false_ne_true]
    refine logs_bind (groupKey_yields _ _) (groupKey_logs _ _) fun _ => ?_
    dsimp only
    rw [hverify]
    exact logs_bind_record fun _ => logs_throw _
  | true =>
    rw [if_neg (not_not_intro rfl), closing_settleAnswer]
    refine logs_bind (groupKey_yields _ _) (groupKey_logs _ _) fun _ => ?_
    dsimp only
    rw [hverify, if_neg (not_not_intro rfl)]
    refine logs_bind_record fun _ => logs_bind_own fun _ => ?_
    dsimp only
    -- the derived keys stand for themselves
    generalize (session.derivation h.own.versions.encode).persistentKey session.secret = key
    generalize (session.derivation h.own.versions.encode).channelKeys session.secret = keys
    have hstored {log : List Event} : Yields (onStore (CredentialStore.storePersistentKey
        session.readerIdentifier key)) ⟨h.own, h.random, log⟩ (.ok () : Except ProtocolError Unit)
        { h.own with store := h.own.store.putPersistentKey session.readerIdentifier key } h.random :=
      yields_within fun _ => yields_bind_ok (yields_record _) fun _ => yields_update _
    exact logs_bind_one hstored (logs_within (logs_bind_record fun _ => logs_update _)) fun log =>
      countersign_logs hlegal

theorem auth1_logs (c : Auth1Command) :
    Logs (Endpoint.auth1 c) h (h.own.view.acting (.auth1 c) (h.own.settleAuth1 h.random c).cause?) := by
  have hclosed (cause? : Option ProtocolError) (hnone : openSession h = .error (.outOfOrder "AUTH0") h)
      (hwaiting : h.own.view.waiting? = none) :
      Logs (Endpoint.auth1 c) h (h.own.view.acting (.auth1 c) cause?) := by
    rw [View.acting, hwaiting]
    have hquiet : Logs openSession h [] := by rw [Logs, outcome_error hnone, List.append_nil]
    exact logs_bind_error ⟨h.log, outcome_error hnone⟩ hquiet
  obtain ⟨⟨store, transaction, versions⟩, random, log⟩ := h
  cases transaction with
  | initial | selectDone | auth1Done session => exact hclosed _ rfl rfl
  | auth0FastDone session => exact session_logs c rfl (show Phase.Legal .auth0FastDone _ by decide)
  | auth0StandardDone session => exact session_logs c rfl (show Phase.Legal .auth0StandardDone _ by decide)

theorem perform_logs (hformed : h.own.store.WellFormed) (request : Request) :
    Logs (perform request) h (h.own.view.acting request (h.own.settle h.random request).cause?) := by
  cases request with
  | select c => exact select_logs c _
  | auth0 c => exact auth0_logs hformed c
  | auth1 c => exact auth1_logs c
  | controlFlow c => exact controlFlow_logs c _

/-! ### What frames log -/

theorem receive_logs (frame : Bytes) :
    Logs (Request.receive frame : Action ProtocolError Endpoint Request) h (reading frame) := by
  have hreceive : Logs (Command.receive frame : Action Command.FramingError Endpoint Command) h (reading frame) := by
    refine logs_bind_record fun _ => ?_
    cases Command.decode frame with
    | ok command => exact logs_bind_record fun _ => logs_pure _
    | error e =>
      dsimp only
      cases e.details? with
      | some details => exact logs_bind_record fun _ => logs_throw _
      | none => exact logs_throw _
  exact logs_bind_last (logs_mapError hreceive) fun _ _ => logs_ofExcept _

theorem refuse_logs {ε : Type} (what : String) (cause : ProtocolError) :
    Logs (refuse what cause : Action ε Endpoint Response) h [refusal what cause] :=
  logs_bind_record fun _ => logs_pure _

theorem respond_logs {ε : Type} (hformed : h.own.store.WellFormed) (request : Request) :
    Logs (respond request : Action ε Endpoint Response) h
      (h.own.view.acting request (h.own.settle h.random request).cause? ++
        ((h.own.settle h.random request).cause?.map (refusal (request.instruction.name ++ " failed"))).toList) := by
  refine logs_bind (yields_attempt (perform_settles request)) (logs_attempt (perform_logs hformed request))
    fun _ => ?_
  unfold Outcome.cause?
  cases (h.own.settle h.random request).result with
  | ok response => exact logs_pure _
  | error cause => exact refuse_logs _ cause

theorem answer_logs {ε : Type} (hformed : h.own.store.WellFormed) (frame : Bytes) :
    Logs (answer frame : Action ε Endpoint Bytes) h
      (h.own.view.transcript frame (h.own.reply h.random frame).response) := by
  refine logs_bind (yields_attempt (receive_yields frame)) (logs_attempt (receive_logs frame)) fun log => ?_
  unfold View.responding reply
  cases Request.decode frame with
  | ok request =>
    dsimp only
    rw [View.cause?_settle]
    exact logs_bind (respond_yields request) (respond_logs (h := ⟨h.own, h.random, log⟩) hformed request) fun _ =>
      logs_bind_record fun _ => logs_pure _
  | error cause =>
    exact logs_bind (refuse_yields _ cause) (refuse_logs _ cause) fun _ => logs_bind_record fun _ => logs_pure _

theorem deselect_logs {ε : Type} :
    Logs (deselect : Action ε Endpoint Unit) h
      [⟨.debug, "transaction stopped in state " ++ h.own.transaction.phase.name⟩] := by
  unfold deselect onTransaction
  refine logs_within (logs_bind_own fun _ => ?_)
  exact logs_bind_record fun _ => logs_update _

/-! ### What histories log -/

namespace View

/-- What is known after a frame that is answered with the given status word. -/
def afterFrame (v : View) (frame : Bytes) (status : StatusWord) : View :=
  match Request.decode frame with
  | .error _ => v
  | .ok request => v.after request (v.cause? status request)

/-- What is logged at one moment and what is known after it, to one who has seen what came and what was answered. -/
def observe (v : View) : Stimulus → Option Bytes → List Event × View
  | .deselect, _ => ([⟨.debug, "transaction stopped in state " ++ v.phase.name⟩], v.deselected)
  | .frame _, none => ([], v)
  | .frame bytes, some answer =>
    match Response.parse answer with
    | .error _ => ([], v)
    | .ok response => (v.transcript bytes response, v.afterFrame bytes response.status)

/-- What is logged from one time on, to one who sees what comes and what is answered. -/
def follow (v : View) : List Stimulus → List (Option Bytes) → List Event
  | s :: stimuli, answer :: answers => (v.observe s answer).1 ++ (v.observe s answer).2.follow stimuli answers
  | _, _ => []

end View

theorem view_reply (e : Endpoint) (random : RandomSource) (frame : Bytes) :
    (e.reply random frame).endpoint.view = e.view.afterFrame frame (e.reply random frame).response.status := by
  unfold View.afterFrame
  cases hdecode : Request.decode frame with
  | error cause => rw [reply, hdecode]
  | ok request =>
    rw [reply_of_decode hdecode]
    dsimp only
    rw [View.cause?_settle, view_settle]

/-- The onlooker knows what a moment logs and what the endpoint is like after it. -/
theorem observe_react (hformed : h.own.store.WellFormed) (s : Stimulus) :
    (react h s).2.log = h.log ++ (h.own.view.observe s (react h s).1).1 ∧
      (react h s).2.own.view = (h.own.view.observe s (react h s).1).2 := by
  cases s with
  | deselect =>
    have hlogs : Logs (deselect : Action Empty Endpoint Unit) h _ := deselect_logs
    obtain ⟨log, hreact⟩ := react_deselect h
    exact ⟨hlogs, by rw [hreact]; rfl⟩
  | frame bytes =>
    have hyields : Yields (answer bytes : Action Empty Endpoint Bytes) h _ _ _ := answer_yields bytes h
    have hlogs : Logs (answer bytes : Action Empty Endpoint Bytes) h _ := answer_logs hformed bytes
    obtain ⟨log, hrun⟩ := hyields.run_ok
    rw [Logs, outcome_ok hrun] at hlogs
    have hparse := Response.parse_encode (canonical_reply h.own h.random bytes)
    rw [react, hrun]
    simp only [View.observe, hparse]
    exact ⟨hlogs, view_reply h.own h.random bytes⟩

theorem Turn.wellFormed {m : Moment} (hturn : Turn m) (hformed : m.before.own.store.WellFormed) :
    m.after.own.store.WellFormed := by
  cases hturn with
  | deselected _ hafter | refused _ hafter | selected _ _ _ hafter | noted _ _ _ hafter
  | opened _ _ _ _ _ hafter =>
    rw [hafter]
    exact hformed
  | unsigned _ _ hafter | completed _ _ _ _ _ _ _ _ hafter =>
    rw [hafter]
    exact hformed.putPersistentKey _ _

/-- All that an endpoint ever logs can be written down by one who knows how much it holds and sees its answers. -/
theorem log_run (hformed : h.own.store.WellFormed) (stimuli : List Stimulus) :
    (run h stimuli).log = h.log ++ h.own.view.follow stimuli ((history h stimuli).map (·.answer)) := by
  induction stimuli generalizing h with
  | nil => exact (List.append_nil _).symm
  | cons s stimuli ih =>
    obtain ⟨hlog, hview⟩ := observe_react hformed s
    have hrest := ih (h := (react h s).2) ((turn_of h s).wellFormed hformed)
    rw [run, hrest, hlog, hview, List.append_assoc]
    rfl

/-- Two new endpoints with the same versions hold equally much: the same groups, as many credentials for each, and
keys shared with the same readers. Otherwise they may differ in everything, and in what they draw. Whenever they give
the same answers, they add the same events to their logs. -/
theorem log_follows_answers (store₁ store₂ : CredentialStore) (versions : Versions)
    (random₁ random₂ : RandomSource) (log₁ log₂ : List Event) (stimuli : List Stimulus)
    (hformed₁ : store₁.WellFormed) (hformed₂ : store₂.WellFormed) (hholdings : store₁.holdings = store₂.holdings)
    (hanswers : (history ⟨.new store₁ versions, random₁, log₁⟩ stimuli).map (·.answer) =
      (history ⟨.new store₂ versions, random₂, log₂⟩ stimuli).map (·.answer)) :
    ∃ events, (run ⟨.new store₁ versions, random₁, log₁⟩ stimuli).log = log₁ ++ events ∧
      (run ⟨.new store₂ versions, random₂, log₂⟩ stimuli).log = log₂ ++ events := by
  have hview : (Endpoint.new store₁ versions).view = (Endpoint.new store₂ versions).view := by
    rw [view, view, new, new, hholdings]
  refine ⟨_, log_run hformed₁ stimuli, ?_⟩
  rw [log_run hformed₂ stimuli, hanswers, hview]

/-! ### Two that hold equally much -/

/-- A store with one credential for one group of readers, which has met one of them. -/
def acquainted (random : RandomSource) (c : Credential) (readerKey : PublicKey) (key : PersistentKey) :
    CredentialStore :=
  ((CredentialStore.create random).1.enroll c ⟨waitingSession.readerIdentifier.group, readerKey⟩).putPersistentKey
    waitingSession.readerIdentifier key

variable (random : RandomSource) (c : Credential) (readerKey : PublicKey) (key : PersistentKey)

theorem wellFormed_acquainted : (acquainted random c readerKey key).WellFormed :=
  ((CredentialStore.wellFormed_create random).enroll c _).putPersistentKey _ key

theorem findPersistentKey_acquainted :
    (acquainted random c readerKey key).findPersistentKey waitingSession.readerIdentifier = some key :=
  CredentialStore.findPersistentKey_putPersistentKey _ _ key

theorem holdings_acquainted : (acquainted random c readerKey key).holdings =
    { groups := {waitingSession.readerIdentifier.group}
      credentials := fun group => if waitingSession.readerIdentifier.group = group then 1 else 0
      readers := {waitingSession.readerIdentifier} } := by
  have hcredentials (group : Identifier) :
      ((acquainted random c readerKey key).findCredentials group).length =
        if waitingSession.readerIdentifier.group = group then 1 else 0 := by
    rw [acquainted, CredentialStore.findCredentials, CredentialStore.putPersistentKey, CredentialStore.enroll,
      Table.get?_put]
    split
    · rfl
    · rfl
  rw [CredentialStore.holdings]
  simp only [hcredentials]
  rfl

/-- Two stores that have nothing in common but what they are about. -/
def oneStore : CredentialStore :=
  acquainted ⟨fun _ => 0x04, 0⟩ waitingSession.credential .generator ⟨.replicate 32 0x08⟩

def otherStore : CredentialStore :=
  acquainted ⟨fun _ => 0x07, 0⟩ ⟨waitingSession.endpointEphemeral⟩ waitingSession.credential.publicKey
    ⟨.replicate 32 0x09⟩

/-- A reader that opens a standard transaction and has no key to sign with. -/
def knocking : List Stimulus :=
  [.frame SelectCommand.access.encode, .frame standardCommand.encode, .frame forgery, .deselect]

theorem react_of_request {bytes : Bytes} {request : Request} {o : Outcome}
    (hdecode : Request.decode bytes = .ok request) (hsettle : h.own.settle h.random request = o) :
    ∃ log, react h (.frame bytes) = (some o.response.encode, ⟨o.endpoint, o.random, log⟩) := by
  obtain ⟨log, hreact⟩ := react_frame h bytes
  rw [reply_of_decode hdecode, hsettle] at hreact
  exact ⟨log, hreact⟩

theorem react_standardCommand (hready : h.own.transaction.phase = .selectDone)
    (hversion : h.own.versions.Supports standardCommand.version) :
    ∃ h', react h (.frame standardCommand.encode) =
        (some (Auth0Response.mk h.random.keyPair.1.publicKey none).toResponse.encode, h') ∧
      (openSession? h'.own.transaction).isSome := by
  obtain ⟨log, hreact⟩ := react_of_request decode_standardCommand (settleAuth0_of_ready h.random hready hversion)
  rw [Outcome.response, openedResponse, endpointEphemeral_freshSession] at hreact
  exact ⟨_, hreact, rfl⟩

theorem react_forgery (hopen : (openSession? h.own.transaction).isSome) :
    ∃ h', react h (.frame forgery) = (some (Response.ofCode .genericError).encode, h') := by
  obtain ⟨session, hopen⟩ := Option.isSome_iff_exists.mp hopen
  have hforged : h.own.settle h.random (.auth1 (.ofSignature (.replicate 64 0x00))) = _ :=
    settle_of_forged hopen (verify_zeros _ _)
  obtain ⟨log, hreact⟩ := react_of_request decode_forgery hforged
  exact ⟨_, hreact⟩

theorem answers_knocking (store : CredentialStore) (random : RandomSource) (log : List Event) :
    (history ⟨.new store .standard, random, log⟩ knocking).map (·.answer) =
      [some (SelectResponse.ofVersions .standard).toResponse.encode,
        some (Auth0Response.mk random.keyPair.1.publicKey none).toResponse.encode,
        some (Response.ofCode .genericError).encode, none] := by
  obtain ⟨log₁, hselect⟩ := react_of_request (h := ⟨.new store .standard, random, log⟩) decode_select
    (settleMove_of_legal _ random (by decide : Phase.Legal .initial .selectDone))
  have hsupports : Versions.standard.Supports standardCommand.version := by decide
  obtain ⟨h₂, hauth0, hopen⟩ := react_standardCommand
    (h := ⟨{ Endpoint.new store .standard with transaction := .selectDone }, random, log₁⟩) rfl hsupports
  obtain ⟨h₃, hforged⟩ := react_forgery hopen
  obtain ⟨log₄, hdeselect⟩ := react_deselect h₃
  simp only [knocking, history, Moment.of, hselect, hauth0, hforged, hdeselect, List.map_cons, List.map_nil]
  rfl

/-- The two stores share different keys with the reader, and the logs of its visit are the same. -/
theorem log_follows_answers_knocking :
    oneStore.findPersistentKey waitingSession.readerIdentifier ≠
      otherStore.findPersistentKey waitingSession.readerIdentifier ∧
    oneStore.WellFormed ∧ otherStore.WellFormed ∧ oneStore.holdings = otherStore.holdings ∧
    (history ⟨.new oneStore .standard, ⟨fun _ => 0x06, 0⟩, []⟩ knocking).map (·.answer) =
      (history ⟨.new otherStore .standard, ⟨fun _ => 0x06, 0⟩, []⟩ knocking).map (·.answer) ∧
    ∃ events, (run ⟨.new oneStore .standard, ⟨fun _ => 0x06, 0⟩, []⟩ knocking).log = [] ++ events ∧
      (run ⟨.new otherStore .standard, ⟨fun _ => 0x06, 0⟩, []⟩ knocking).log = [] ++ events := by
  have hkeys : oneStore.findPersistentKey waitingSession.readerIdentifier ≠
      otherStore.findPersistentKey waitingSession.readerIdentifier := by
    rw [oneStore, otherStore, findPersistentKey_acquainted, findPersistentKey_acquainted]
    decide
  have hformed₁ : oneStore.WellFormed := wellFormed_acquainted _ _ _ _
  have hformed₂ : otherStore.WellFormed := wellFormed_acquainted _ _ _ _
  have hholdings : oneStore.holdings = otherStore.holdings := by
    rw [oneStore, otherStore, holdings_acquainted, holdings_acquainted]
  have hanswers : (history ⟨.new oneStore .standard, ⟨fun _ => 0x06, 0⟩, []⟩ knocking).map (·.answer) =
      (history ⟨.new otherStore .standard, ⟨fun _ => 0x06, 0⟩, []⟩ knocking).map (·.answer) := by
    rw [answers_knocking, answers_knocking]
  exact ⟨hkeys, hformed₁, hformed₂, hholdings, hanswers,
    log_follows_answers oneStore otherStore .standard _ _ [] [] knocking hformed₁ hformed₂ hholdings hanswers⟩

end TapAccess.Endpoint
