import TapAccess.Proofs.Message.Requests
import TapAccess.Proofs.Reader.Unasked

/-!
# The course of a transaction

A transaction is over after SELECT, after AUTH0, or after one command more. `Course` lists the ways in which that
happens: what is sent, what comes back, and what the transaction comes to. `records_transact` says that every
transaction takes one of them, whatever the link does. From there on nothing has to be known of the program, and
`transact_classified` reads off the courses what becomes of each kind of answer.

The proof follows `transact` with `Records`, which says what an action adds to the record of exchanges and how it
ends. Every exchange adds one entry, and what follows it hangs on that entry only (`exchanges_bind`).
-/

namespace TapAccess.Reader

open TapAccess.Action

variable {σ : Type}

/-! ### What the reader makes of an answer -/

/-- The response in what came back, if the link brought anything back and it is one. -/
def heard : Except String Bytes → Except TransactError Response
  | .error cause => .error (.transport cause)
  | .ok answer => (Response.parse answer).mapError TransactError.protocol

def readSelect (response : Response) : Except TransactError (Option SelectResponse) :=
  if response.IsSuccess then ((SelectResponse.ofResponse response).mapError TransactError.protocol).map some
  else .ok none

def readAuth0 (response : Response) : Except TransactError Auth0Response :=
  if response.IsSuccess then (Auth0Response.ofResponse response).mapError TransactError.protocol
  else .error (.rejected "AUTH0" response.status.value)

/-- The verdict on a response to AUTH1. -/
def Opening.verdict (o : Opening) (configuration : Configuration) (response : Response) : Verdict :=
  if response.status.sw1 = 0x90 then
    match o.provenKey configuration (.ofResponse response) with
    | .ok key => .authorized o.command.transactionIdentifier key
    | .error _ => .unauthorized
  else .unauthorized

/-- The version that the reader goes on with after an answer to SELECT and the versions that were on offer, or what
the transaction comes to without one. -/
def afterSelect (configuration : Configuration) (answer : Except String Bytes) :
    Except (Except TransactError Verdict) (Version × Bytes) :=
  match heard answer >>= readSelect with
  | .error e => .error (.error e)
  | .ok none => .error (.ok .unauthorized)
  | .ok (some select) =>
    match configuration.versions.negotiate? select.supportedVersions with
    | none => .error (.error (.protocol .noSupportedVersion))
    | some version => .ok (version, select.supportedVersions)

def afterAuth0 (answer : Except String Bytes) : Except TransactError Auth0Response := heard answer >>= readAuth0

/-! ### Courses -/

/-- The answers to SELECT and AUTH0 establish the opening. -/
structure Established (configuration : Configuration) (code : TransactionCode) (first second : Except String Bytes)
    (o : Opening) : Prop where
  select : ∃ version transactionIdentifier, afterSelect configuration first = .ok (version, o.supportedVersions) ∧
    o.command = auth0Command configuration code version o.readerEphemeral transactionIdentifier
  auth0 : afterAuth0 second = .ok o.response

/-- The exchanges of a transaction and what it comes to. -/
inductive Course (reader : Reader) (code : TransactionCode) : List Exchange → Except TransactError Verdict → Prop
  | select (first : Except String Bytes) (result : Except TransactError Verdict)
      (hfirst : afterSelect reader.configuration first = .error result) :
      Course reader code [(SelectCommand.access.encode, first)] result
  | auth0 (first second : Except String Bytes) (version : Version) (offered : Bytes) (readerEphemeral : KeyPair)
      (transactionIdentifier : Identifier) (cause : TransactError)
      (hfirst : afterSelect reader.configuration first = .ok (version, offered))
      (hsecond : afterAuth0 second = .error cause) :
      Course reader code [(SelectCommand.access.encode, first),
        ((auth0Command reader.configuration code version readerEphemeral transactionIdentifier).encode, second)]
        (.error cause)
  | fast (first second third : Except String Bytes) (o : Opening) (device : KnownDevice)
      (hestablished : Established reader.configuration code first second o)
      (hknown : o.known? reader = some device) :
      Course reader code [(SelectCommand.access.encode, first), (o.command.encode, second),
        (ControlFlowCommand.success.encode, third)]
        ((heard third).map fun _ => .authorized o.command.transactionIdentifier device.publicKey)
  | standard (first second third : Except String Bytes) (o : Opening) (signature : Signature)
      (hestablished : Established reader.configuration code first second o) (hunknown : o.known? reader = none)
      (hsigned : Signature.make reader.configuration.keyPair.privateKey
        ((o.handshake reader.configuration).authenticationData .reader) = .ok signature) :
      Course reader code [(SelectCommand.access.encode, first), (o.command.encode, second),
        ((Auth1Command.ofSignature signature).encode, third)]
        ((heard third).map (o.verdict reader.configuration))
  | unsigned (first second : Except String Bytes) (o : Opening) (cause : ProtocolError)
      (hestablished : Established reader.configuration code first second o) (hunknown : o.known? reader = none)
      (hunsigned : Signature.make reader.configuration.keyPair.privateKey
        ((o.handshake reader.configuration).authenticationData .reader) = .error cause) :
      Course reader code [(SelectCommand.access.encode, first), (o.command.encode, second)]
        (.error (.protocol cause))

/-! ### What an action adds to the record -/

/-- The action adds these exchanges to the record and ends in this result. -/
def Records {α : Type} (a : Action TransactError (Linked (σ × List Exchange)) α)
    (h : Hosted (Linked (σ × List Exchange))) (sent : List Exchange) (result : Except TransactError α) : Prop :=
  ∃ h', a.outcome h = (result, h') ∧ h'.own.link.2 = h.own.link.2 ++ sent

section

variable {α β : Type} {h : Hosted (Linked (σ × List Exchange))} {sent more : List Exchange}
  {x : Action TransactError (Linked (σ × List Exchange)) α}
  {f : α → Action TransactError (Linked (σ × List Exchange)) β}

theorem records_pure (a : α) : Records (pure a) h [] (.ok a) := ⟨h, rfl, (List.append_nil _).symm⟩

theorem records_throw (e : TransactError) :
    Records (throw e : Action TransactError (Linked (σ × List Exchange)) α) h [] (.error e) :=
  ⟨h, rfl, (List.append_nil _).symm⟩

theorem records_ofExcept (r : Except TransactError α) : Records (Action.ofExcept r) h [] r := by
  cases r with
  | ok a => exact records_pure a
  | error e => exact records_throw e

theorem records_bind {h' : Hosted (Linked (σ × List Exchange))} {a : α} {result : Except TransactError β}
    (hx : x h = .ok a h') (hsent : h'.own.link.2 = h.own.link.2 ++ sent) (hf : Records (f a) h' more result) :
    Records (x >>= f) h (sent ++ more) result := by
  obtain ⟨h'', hrun, hrecord⟩ := hf
  refine ⟨h'', (outcome_congr (bind_ok hx)).trans hrun, ?_⟩
  rw [hrecord, hsent, List.append_assoc]

theorem records_quiet {h' : Hosted (Linked (σ × List Exchange))} {a : α} {result : Except TransactError β}
    (hx : x h = .ok a h') (hsame : h'.own.link.2 = h.own.link.2) (hf : Records (f a) h' more result) :
    Records (x >>= f) h more result := by
  have hnothing : h'.own.link.2 = h.own.link.2 ++ [] := by rw [hsame, List.append_nil]
  exact records_bind hx hnothing hf

theorem records_bind_ok {a : α} {result : Except TransactError β} (hx : Records x h sent (.ok a))
    (hkeeps : Keeps (fun l : Linked (σ × List Exchange) => l.reader) x)
    (hf : ∀ h', h'.own.reader = h.own.reader → Records (f a) h' more result) :
    Records (x >>= f) h (sent ++ more) result := by
  obtain ⟨h', hrun, hrecord⟩ := hx
  have hok := eq_ok_of_outcome hrun
  exact records_bind hok hrecord (hf h' (hkeeps.ok hok))

theorem records_bind_error {e : TransactError} (hx : Records x h sent (.error e)) :
    Records (x >>= f) h sent (.error e) := by
  obtain ⟨h', hrun, hrecord⟩ := hx
  exact ⟨h', outcome_error (bind_error (eq_error_of_outcome hrun)), hrecord⟩

theorem records_map (r : Except TransactError α) (g : α → β) :
    Records (Action.ofExcept r >>= fun a => pure (g a)) h [] (r.map g) := by
  cases r with
  | ok a => exact records_quiet rfl rfl (records_pure _)
  | error e => exact records_bind_error (records_throw e)

variable (link : Link σ)

/-- An exchange adds itself to the record, and the response is what was heard. -/
theorem records_exchange (command : Bytes) (h : Hosted (Linked (σ × List Exchange))) :
    ∃ answer, Records (exchange link.recorded command) h [(command, answer)] (heard answer) := by
  unfold exchange
  obtain ⟨h₀, hsend, hsame⟩ : ∃ h₀ : Hosted (Linked (σ × List Exchange)),
      (debug ("sending APDU: " ++ Hex.encode command) : Action TransactError _ Unit) h = .ok () h₀ ∧
      h₀.own.link.2 = h.own.link.2 := ⟨_, rfl, rfl⟩
  have hrecorded := recorded_eq link command ⟨h₀.own.link, h₀.random, h₀.log⟩
  cases hlink : link command ⟨h₀.own.link.1, h₀.random, h₀.log⟩ with
  | ok answer t =>
    rw [hlink] at hrecorded
    exact ⟨.ok answer, records_quiet hsend hsame (records_bind (carry_eq_ok_iff.mpr ⟨_, hrecorded, rfl⟩) rfl
      (records_quiet (debug_eq _ _) rfl (records_ofExcept _)))⟩
  | error cause t =>
    rw [hlink] at hrecorded
    exact ⟨.error cause, records_quiet hsend hsame
      (records_bind_error ⟨_, outcome_error (carry_eq_error hrecorded), rfl⟩)⟩

/-- The action makes one exchange, of this command, and what it ends in hangs on what the link brings back. -/
def Exchanges (a : Action TransactError (Linked (σ × List Exchange)) α) (h : Hosted (Linked (σ × List Exchange)))
    (command : Bytes) (result : Except String Bytes → Except TransactError α) : Prop :=
  ∃ answer, Records a h [(command, answer)] (result answer)

theorem exchanges_quiet {h' : Hosted (Linked (σ × List Exchange))} {a : α} {command : Bytes}
    {result : Except String Bytes → Except TransactError β} (hx : x h = .ok a h')
    (hsame : h'.own.link.2 = h.own.link.2) (hf : Exchanges (f a) h' command result) :
    Exchanges (x >>= f) h command result := by
  obtain ⟨answer, hrecords⟩ := hf
  exact ⟨answer, records_quiet hx hsame hrecords⟩

variable {link} in
theorem exchanges_bind {command : Bytes} {f : Response → Action TransactError (Linked (σ × List Exchange)) α}
    {result : Except String Bytes → Except TransactError α}
    (herror : ∀ answer e, heard answer = .error e → result answer = .error e)
    (hok : ∀ answer response h', heard answer = .ok response → h'.own.reader = h.own.reader →
      Records (f response) h' [] (result answer)) :
    Exchanges (exchange link.recorded command >>= f) h command result := by
  obtain ⟨answer, hexchange⟩ := records_exchange link command h
  refine ⟨answer, ?_⟩
  cases hheard : heard answer with
  | error e =>
    rw [hheard] at hexchange
    rw [herror answer e hheard]
    exact records_bind_error hexchange
  | ok response =>
    rw [hheard] at hexchange
    exact records_bind_ok hexchange (keeps_exchange _ _) fun h' => hok answer response h' hheard

/-! ### What the steps of a transaction add -/

theorem exchanges_sendSelect (h : Hosted (Linked (σ × List Exchange))) :
    Exchanges (sendSelect link.recorded) h SelectCommand.access.encode fun first => heard first >>= readSelect := by
  refine exchanges_bind (fun first e hheard => by rw [hheard]; rfl) fun first response h' hheard _ => ?_
  rw [hheard]
  show Records _ h' [] (readSelect response)
  unfold readSelect
  split
  · exact records_map _ _
  · exact records_quiet rfl rfl (records_pure _)

/-- The opening that AUTH0 leads to when it is answered. -/
def openingOf (command : Auth0Command) (readerEphemeral : KeyPair) (supportedVersions : Bytes)
    (response : Auth0Response) : Opening where
  command := command
  readerEphemeral := readerEphemeral
  response := response
  supportedVersions := supportedVersions

theorem exchanges_sendAuth0 (code : TransactionCode) (version : Version) (offered : Bytes)
    (h : Hosted (Linked (σ × List Exchange))) :
    ∃ readerEphemeral transactionIdentifier command,
      command = auth0Command h.own.reader.configuration code version readerEphemeral transactionIdentifier ∧
      Exchanges (sendAuth0 link.recorded code version offered) h command.encode fun second =>
        (afterAuth0 second).map (openingOf command readerEphemeral offered) := by
  refine ⟨h.random.keyPair.1, (h.random.keyPair.2.octets 16).1, _, rfl, ?_⟩
  refine exchanges_quiet (own_eq h) rfl (exchanges_quiet rfl rfl (exchanges_quiet rfl rfl (exchanges_bind
    (fun second e hheard => by rw [afterAuth0, hheard]; rfl) fun second response h' hheard _ => ?_)))
  rw [afterAuth0, hheard]
  show Records _ h' [] ((readAuth0 response).map _)
  unfold readAuth0
  by_cases hsuccess : response.IsSuccess
  · rw [if_pos hsuccess, if_neg (not_not_intro hsuccess)]
    exact records_map _ _
  · rw [if_neg hsuccess, if_pos hsuccess]
    exact records_throw _

theorem exchanges_finishFast (o : Opening) (device : KnownDevice) (h : Hosted (Linked (σ × List Exchange))) :
    Exchanges (finishFast link.recorded o device) h ControlFlowCommand.success.encode fun third =>
      (heard third).map fun _ => .authorized o.command.transactionIdentifier device.publicKey := by
  simp only [finishFast, sendControlFlow, bind_assoc, pure_bind]
  refine exchanges_bind (fun third e hheard => by rw [hheard]; rfl) fun third response h' hheard _ => ?_
  rw [hheard]
  by_cases hstatus : (ControlFlowResponse.ofResponse response).status ≠ .known .ok
  · rw [if_pos hstatus]
    exact records_quiet rfl rfl (records_pure _)
  · rw [if_neg hstatus]
    exact records_pure _

theorem exchanges_finishStandard {o : Opening} {signature : Signature} {h : Hosted (Linked (σ × List Exchange))}
    (hsigned : Signature.make h.own.reader.configuration.keyPair.privateKey
      ((o.handshake h.own.reader.configuration).authenticationData .reader) = .ok signature) :
    Exchanges (finishStandard link.recorded o) h (Auth1Command.ofSignature signature).encode fun third =>
      (heard third).map (o.verdict h.own.reader.configuration) := by
  -- the reader's list of devices may change behind the exchange, which nothing in the record shows
  unfold finishStandard
  refine exchanges_quiet (own_eq h) rfl (exchanges_quiet (ofExcept_eq_ok_iff.mpr ⟨by rw [hsigned]; rfl, rfl⟩) rfl
    (exchanges_bind (fun third e hheard => by rw [hheard]; rfl) fun third response h' hheard _ => ?_))
  rw [hheard]
  show Records _ h' [] (.ok (o.verdict h.own.reader.configuration response))
  unfold Opening.verdict
  by_cases hcomplete : response.status.sw1 = 0x90
  · have hdone : (Auth1Response.ofResponse response).IsComplete := hcomplete
    rw [if_pos hcomplete, if_neg (not_not_intro hdone)]
    cases o.provenKey h.own.reader.configuration (.ofResponse response) with
    | error complaint => exact records_quiet rfl rfl (records_pure _)
    | ok key => exact records_quiet rfl rfl (records_quiet rfl rfl (records_pure _))
  · have hmore : ¬ (Auth1Response.ofResponse response).IsComplete := hcomplete
    rw [if_neg hcomplete, if_pos hmore]
    exact records_quiet rfl rfl (records_pure _)

/-! ### Whole transactions -/

variable {link} in
theorem records_finish {reader : Reader} {code : TransactionCode} {first second : Except String Bytes} {o : Opening}
    (hestablished : Established reader.configuration code first second o)
    {h : Hosted (Linked (σ × List Exchange))} (hreader : h.own.reader = reader) :
    ∃ sent result, Records (do
        match ← knownDevice? o with
        | some device => finishFast link.recorded o device
        | none => finishStandard link.recorded o) h sent result ∧
      Course reader code ((SelectCommand.access.encode, first) :: (o.command.encode, second) :: sent) result := by
  subst hreader
  have hcompared := knownDevice?_eq o h
  cases hknown : o.known? h.own.reader with
  | some device =>
    rw [hknown] at hcompared
    obtain ⟨third, hrecords⟩ := exchanges_finishFast link o device (compared o h)
    exact ⟨_, _, records_quiet hcompared rfl hrecords, .fast first second third o device hestablished hknown⟩
  | none =>
    rw [hknown] at hcompared
    cases hsign : Signature.make h.own.reader.configuration.keyPair.privateKey
        ((o.handshake h.own.reader.configuration).authenticationData .reader) with
    | error cause =>
      have hunsigned : finishStandard link.recorded o (compared o h) = .error (.protocol cause) (compared o h) :=
        finishStandard_of_unsigned hsign
      exact ⟨[], _, records_quiet hcompared rfl ⟨_, outcome_error hunsigned, (List.append_nil _).symm⟩,
        .unsigned first second o cause hestablished hknown hsign⟩
    | ok signature =>
      obtain ⟨third, hrecords⟩ : Exchanges (finishStandard link.recorded o) (compared o h) _ _ :=
        exchanges_finishStandard link hsign
      exact ⟨_, _, records_quiet hcompared rfl hrecords,
        .standard first second third o signature hestablished hknown hsign⟩

theorem records_open {reader : Reader} (code : TransactionCode) {first : Except String Bytes} {version : Version}
    {offered : Bytes} (hfirst : afterSelect reader.configuration first = .ok (version, offered))
    {h : Hosted (Linked (σ × List Exchange))} (hreader : h.own.reader = reader) :
    ∃ sent result, Records (do
        debug ("negotiated protocol version " ++ Hex.prefixed16 version)
        let opening ← sendAuth0 link.recorded code version offered
        match ← knownDevice? opening with
        | some device => finishFast link.recorded opening device
        | none => finishStandard link.recorded opening) h sent result ∧
      Course reader code ((SelectCommand.access.encode, first) :: sent) result := by
  subst hreader
  obtain ⟨h₁, hnoted, hlink, hkept⟩ : ∃ h₁ : Hosted (Linked (σ × List Exchange)),
      (debug ("negotiated protocol version " ++ Hex.prefixed16 version) : Action TransactError _ Unit) h = .ok () h₁ ∧
      h₁.own.link.2 = h.own.link.2 ∧ h₁.own.reader = h.own.reader := ⟨_, rfl, rfl, rfl⟩
  obtain ⟨readerEphemeral, transactionIdentifier, command, hcommand, second, hopened⟩ :=
    exchanges_sendAuth0 link code version offered h₁
  rw [hkept] at hcommand
  change Records _ _ _ ((afterAuth0 second).map _) at hopened
  cases hsecond : afterAuth0 second with
  | error cause =>
    rw [hsecond] at hopened
    subst hcommand
    exact ⟨_, _, records_quiet hnoted hlink (records_bind_error hopened),
      .auth0 first second version offered readerEphemeral transactionIdentifier cause hfirst hsecond⟩
  | ok response =>
    rw [hsecond] at hopened
    obtain ⟨h₂, hrun, hrecord⟩ := hopened
    have hok := eq_ok_of_outcome hrun
    have hestablished : Established h.own.reader.configuration code first second
        (openingOf command readerEphemeral offered response) :=
      ⟨⟨version, transactionIdentifier, hfirst, hcommand⟩, hsecond⟩
    obtain ⟨sent, result, hrest, hcourse⟩ :=
      records_finish hestablished (((keeps_sendAuth0 link.recorded code version offered).ok hok).trans hkept)
    exact ⟨_, result, records_quiet hnoted hlink (records_bind hok hrecord hrest), hcourse⟩

theorem records_transact (code : TransactionCode) (h : Hosted (Linked (σ × List Exchange))) :
    ∃ sent result, Records (transact link.recorded code) h sent result ∧ Course h.own.reader code sent result := by
  obtain ⟨first, hselect⟩ := exchanges_sendSelect link h
  change Records _ _ _ (heard first >>= readSelect) at hselect
  cases hheard : heard first >>= readSelect with
  | error e =>
    rw [hheard] at hselect
    exact ⟨_, _, records_bind_error hselect, .select first (.error e) (by rw [afterSelect, hheard])⟩
  | ok select? =>
    rw [hheard] at hselect
    obtain ⟨h₁, hrun, hrecord⟩ := hselect
    have hok := eq_ok_of_outcome hrun
    have hreader : h₁.own.reader = h.own.reader := (keeps_sendSelect link.recorded).ok hok
    cases select? with
    | none =>
      exact ⟨_, _, records_bind hok hrecord (records_pure _),
        .select first (.ok .unauthorized) (by rw [afterSelect, hheard])⟩
    | some select =>
      have hown : (own : Action TransactError _ _) h₁ = .ok h₁.own h₁ := own_eq h₁
      cases hversion : h.own.reader.configuration.versions.negotiate? select.supportedVersions with
      | none =>
        refine ⟨_, _, records_bind hok hrecord (records_quiet hown rfl ?_),
          .select first (.error (.protocol .noSupportedVersion)) (by simp only [afterSelect, hheard, hversion])⟩
        dsimp only
        rw [hreader, hversion]
        exact records_throw _
      | some version =>
        have hfirst : afterSelect h.own.reader.configuration first = .ok (version, select.supportedVersions) := by
          simp only [afterSelect, hheard, hversion]
        obtain ⟨sent, result, hrest, hcourse⟩ := records_open link code hfirst hreader
        refine ⟨_, result, records_bind hok hrecord (records_quiet hown rfl ?_), hcourse⟩
        dsimp only
        rw [hreader, hversion]
        exact hrest

end

/-! ### What becomes of an answer -/

variable {reader : Reader} {configuration : Configuration} {code : TransactionCode} {sent : List Exchange}
  {result : Except TransactError Verdict} {command : Bytes} {answer : Except String Bytes} {response : Response}

theorem heard_of_short {bytes : Bytes} (hshort : bytes.length < 2) :
    heard (.ok bytes) = .error (.protocol (.malformedApdu "response is shorter than a status word")) := by
  rw [heard, Response.parse_of_short hshort]
  rfl

theorem heard_of_parse {bytes : Bytes} (hparse : Response.parse bytes = .ok response) :
    heard (.ok bytes) = .ok response := by
  rw [heard, hparse]
  rfl

theorem afterSelect_of_error {e : TransactError} (hheard : heard answer = .error e) :
    afterSelect configuration answer = .error (.error e) := by
  rw [afterSelect, hheard]
  rfl

theorem afterSelect_of_refused (hheard : heard answer = .ok response) (hrefused : ¬ response.IsSuccess) :
    afterSelect configuration answer = .error (.ok .unauthorized) := by
  have hread : heard answer >>= readSelect = .ok none := by
    rw [hheard]
    exact if_neg hrefused
  rw [afterSelect, hread]

theorem bind_readSelect (hheard : heard answer = .ok response) (hsuccess : response.IsSuccess) :
    heard answer >>= readSelect =
      ((SelectResponse.ofResponse response).mapError TransactError.protocol).map some := by
  rw [hheard]
  exact if_pos hsuccess

theorem afterSelect_of_unread {cause : ProtocolError} (hheard : heard answer = .ok response)
    (hsuccess : response.IsSuccess) (hunread : SelectResponse.ofResponse response = .error cause) :
    afterSelect configuration answer = .error (.error (.protocol cause)) := by
  rw [afterSelect, bind_readSelect hheard hsuccess, hunread]
  rfl

theorem afterSelect_of_no_version {select : SelectResponse} (hheard : heard answer = .ok response)
    (hsuccess : response.IsSuccess) (hread : SelectResponse.ofResponse response = .ok select)
    (hversion : configuration.versions.negotiate? select.supportedVersions = none) :
    afterSelect configuration answer = .error (.error (.protocol .noSupportedVersion)) := by
  have hselect : heard answer >>= readSelect = .ok (some select) := by
    rw [bind_readSelect hheard hsuccess, hread]
    rfl
  simp only [afterSelect, hselect, hversion]

theorem afterAuth0_of_error {e : TransactError} (hheard : heard answer = .error e) :
    afterAuth0 answer = .error e := by
  rw [afterAuth0, hheard]
  rfl

theorem afterAuth0_of_refused (hheard : heard answer = .ok response) (hrefused : ¬ response.IsSuccess) :
    afterAuth0 answer = .error (.rejected "AUTH0" response.status.value) := by
  rw [afterAuth0, hheard]
  exact if_neg hrefused

theorem afterAuth0_of_unread {cause : ProtocolError} (hheard : heard answer = .ok response)
    (hsuccess : response.IsSuccess) (hunread : Auth0Response.ofResponse response = .error cause) :
    afterAuth0 answer = .error (.protocol cause) := by
  have hread : readAuth0 response = (Auth0Response.ofResponse response).mapError TransactError.protocol :=
    if_pos hsuccess
  rw [afterAuth0, hheard]
  show readAuth0 response = _
  rw [hread, hunread]
  rfl

/-! ### What the courses have in common -/

theorem Established.afterSelect_ne {first second : Except String Bytes} {o : Opening}
    (hestablished : Established configuration code first second o) (result : Except TransactError Verdict) :
    afterSelect configuration first ≠ .error result := by
  obtain ⟨⟨version, _, hfirst, -⟩, -⟩ := hestablished
  rw [hfirst]
  simp

theorem Established.afterAuth0_ne {first second : Except String Bytes} {o : Opening}
    (hestablished : Established configuration code first second o) (cause : TransactError) :
    afterAuth0 second ≠ .error cause := by
  rw [hestablished.auth0]
  simp

/-- An answer to SELECT that leaves no version ends the transaction. -/
theorem Course.first (hcourse : Course reader code sent result) (hsent : sent[0]? = some (command, answer))
    {ended : Except TransactError Verdict} (hended : afterSelect reader.configuration answer = .error ended) :
    result = ended ∧ sent.length = 1 := by
  cases hcourse with
  | select first result hfirst =>
    cases hsent
    rw [hfirst, Except.error.injEq] at hended
    exact ⟨hended, rfl⟩
  | auth0 first second version offered readerEphemeral transactionIdentifier cause hfirst =>
    cases hsent
    rw [hfirst] at hended
    cases hended
  | fast first second third o device hestablished =>
    cases hsent
    exact absurd hended (hestablished.afterSelect_ne ended)
  | standard first second third o signature hestablished =>
    cases hsent
    exact absurd hended (hestablished.afterSelect_ne ended)
  | unsigned first second o cause hestablished =>
    cases hsent
    exact absurd hended (hestablished.afterSelect_ne ended)

/-- An answer to AUTH0 that establishes nothing ends the transaction. -/
theorem Course.second (hcourse : Course reader code sent result) (hsent : sent[1]? = some (command, answer))
    {cause : TransactError} (hended : afterAuth0 answer = .error cause) :
    result = .error cause ∧ sent.length = 2 := by
  cases hcourse with
  | select => cases hsent
  | auth0 first second version offered readerEphemeral transactionIdentifier cause hfirst hsecond =>
    cases hsent
    rw [hsecond, Except.error.injEq] at hended
    exact ⟨by rw [hended], rfl⟩
  | fast first second third o device hestablished =>
    cases hsent
    exact absurd hended (hestablished.afterAuth0_ne cause)
  | standard first second third o signature hestablished =>
    cases hsent
    exact absurd hended (hestablished.afterAuth0_ne cause)
  | unsigned first second o cause' hestablished =>
    cases hsent
    exact absurd hended (hestablished.afterAuth0_ne cause)

/-- The third answer is the last one, and only as a response it leads to a verdict. -/
theorem Course.third (hcourse : Course reader code sent result) (hsent : sent[2]? = some (command, answer)) :
    (∃ verdict : Response → Verdict, result = (heard answer).map verdict) ∧ sent.length = 3 := by
  cases hcourse with
  | select => cases hsent
  | auth0 => cases hsent
  | fast first second third o device =>
    cases hsent
    exact ⟨⟨_, rfl⟩, rfl⟩
  | standard first second third o signature =>
    cases hsent
    exact ⟨⟨_, rfl⟩, rfl⟩
  | unsigned => cases hsent

theorem Course.length_le (hcourse : Course reader code sent result) : sent.length ≤ 3 := by
  cases hcourse <;> simp

theorem Course.of_heard_error (hcourse : Course reader code sent result) {i : Nat}
    (hsent : sent[i]? = some (command, answer)) {e : TransactError} (hheard : heard answer = .error e) :
    result = .error e ∧ sent.length = i + 1 := by
  match i with
  | 0 => exact hcourse.first hsent (afterSelect_of_error hheard)
  | 1 => exact hcourse.second hsent (afterAuth0_of_error hheard)
  | 2 =>
    obtain ⟨⟨verdict, hresult⟩, hlength⟩ := hcourse.third hsent
    rw [hheard] at hresult
    exact ⟨hresult, hlength⟩
  | i + 3 =>
    have hlength := hcourse.length_le
    rw [List.getElem?_eq_none (by omega)] at hsent
    cases hsent

/-! ### What is sent -/

/-- The requests of a transaction: SELECT, AUTH0 with the reader's own names, and CONTROL_FLOW or AUTH1, each of
them only after the ones before it. -/
inductive Sends (configuration : Configuration) (code : TransactionCode) : List Request → Prop
  | select : Sends configuration code [.select .access]
  | auth0 (version : Version) (readerEphemeral : KeyPair) (transactionIdentifier : Identifier) :
      Sends configuration code [.select .access,
        .auth0 (auth0Command configuration code version readerEphemeral transactionIdentifier)]
  | controlFlow (version : Version) (readerEphemeral : KeyPair) (transactionIdentifier : Identifier) :
      Sends configuration code [.select .access,
        .auth0 (auth0Command configuration code version readerEphemeral transactionIdentifier),
        .controlFlow .success]
  | auth1 (version : Version) (readerEphemeral : KeyPair) (transactionIdentifier : Identifier)
      (signature : Signature) :
      Sends configuration code [.select .access,
        .auth0 (auth0Command configuration code version readerEphemeral transactionIdentifier),
        .auth1 (.ofSignature signature)]

theorem Course.sends (hcourse : Course reader code sent result) : ∃ requests,
    Sends reader.configuration code requests ∧ sent.map (·.1) = requests.map Request.encode := by
  cases hcourse with
  | select => exact ⟨_, .select, rfl⟩
  | auth0 first second version offered readerEphemeral transactionIdentifier =>
    exact ⟨_, .auth0 version readerEphemeral transactionIdentifier, rfl⟩
  | fast first second third o device hestablished =>
    obtain ⟨⟨version, transactionIdentifier, -, hcommand⟩, -⟩ := hestablished
    rw [hcommand]
    exact ⟨_, .controlFlow version o.readerEphemeral transactionIdentifier, rfl⟩
  | standard first second third o signature hestablished =>
    obtain ⟨⟨version, transactionIdentifier, -, hcommand⟩, -⟩ := hestablished
    rw [hcommand]
    exact ⟨_, .auth1 version o.readerEphemeral transactionIdentifier signature, rfl⟩
  | unsigned first second o cause hestablished =>
    obtain ⟨⟨version, transactionIdentifier, -, hcommand⟩, -⟩ := hestablished
    rw [hcommand]
    exact ⟨_, .auth0 version o.readerEphemeral transactionIdentifier, rfl⟩

theorem Sends.decode {requests : List Request} (hsends : Sends configuration code requests) :
    ∀ request ∈ requests, Request.decode request.encode = .ok request.named := by
  have hselect : Request.decode (Request.select .access).encode = .ok (Request.select .access).named :=
    SelectCommand.decode_encode (by decide)
  have hauth0 (c : Auth0Command) : Request.decode (Request.auth0 c).encode = .ok (Request.auth0 c).named :=
    c.decode_encode
  cases hsends with
  | select => simpa using hselect
  | auth0 => simpa using ⟨hselect, hauth0 _⟩
  | controlFlow => simpa using ⟨hselect, hauth0 _, ControlFlowCommand.decode_success⟩
  | auth1 version readerEphemeral transactionIdentifier signature =>
    simpa using ⟨hselect, hauth0 _, Auth1Command.decode_ofSignature signature⟩

/-! ### Answers and results -/

/-- What becomes of a transaction after each kind of answer, and that nothing is sent after those that end it. -/
structure Classified (configuration : Configuration) (sent : List Exchange) (result : Except TransactError Verdict) :
    Prop where
  lost : ∀ i command cause, sent[i]? = some (command, .error cause) →
    result = .error (.transport cause) ∧ sent.length = i + 1
  short : ∀ i command answer, sent[i]? = some (command, .ok answer) → answer.length < 2 →
    result = .error (.protocol (.malformedApdu "response is shorter than a status word")) ∧ sent.length = i + 1
  selectRefused : ∀ command answer response, sent[0]? = some (command, .ok answer) →
    Response.parse answer = .ok response → ¬ response.IsSuccess → result = .ok .unauthorized ∧ sent.length = 1
  selectUnread : ∀ command answer response cause, sent[0]? = some (command, .ok answer) →
    Response.parse answer = .ok response → response.IsSuccess →
    SelectResponse.ofResponse response = .error cause → result = .error (.protocol cause) ∧ sent.length = 1
  noVersion : ∀ command answer response select, sent[0]? = some (command, .ok answer) →
    Response.parse answer = .ok response → response.IsSuccess → SelectResponse.ofResponse response = .ok select →
    configuration.versions.negotiate? select.supportedVersions = none →
    result = .error (.protocol .noSupportedVersion) ∧ sent.length = 1
  auth0Refused : ∀ command answer response, sent[1]? = some (command, .ok answer) →
    Response.parse answer = .ok response → ¬ response.IsSuccess →
    result = .error (.rejected "AUTH0" response.status.value) ∧ sent.length = 2
  auth0Unread : ∀ command answer response cause, sent[1]? = some (command, .ok answer) →
    Response.parse answer = .ok response → response.IsSuccess →
    Auth0Response.ofResponse response = .error cause → result = .error (.protocol cause) ∧ sent.length = 2
  verdict : ∀ command answer, sent[2]? = some (command, .ok answer) → 2 ≤ answer.length →
    ∃ verdict, result = .ok verdict

theorem Course.classified (hcourse : Course reader code sent result) :
    Classified reader.configuration sent result where
  lost i command cause hsent := hcourse.of_heard_error hsent rfl
  short i command answer hsent hshort := hcourse.of_heard_error hsent (heard_of_short hshort)
  selectRefused command answer response hsent hparse hrefused :=
    hcourse.first hsent (afterSelect_of_refused (heard_of_parse hparse) hrefused)
  selectUnread command answer response cause hsent hparse hsuccess hunread :=
    hcourse.first hsent (afterSelect_of_unread (heard_of_parse hparse) hsuccess hunread)
  noVersion command answer response select hsent hparse hsuccess hread hversion :=
    hcourse.first hsent (afterSelect_of_no_version (heard_of_parse hparse) hsuccess hread hversion)
  auth0Refused command answer response hsent hparse hrefused :=
    hcourse.second hsent (afterAuth0_of_refused (heard_of_parse hparse) hrefused)
  auth0Unread command answer response cause hsent hparse hsuccess hunread :=
    hcourse.second hsent (afterAuth0_of_unread (heard_of_parse hparse) hsuccess hunread)
  verdict command answer hsent hlong := by
    obtain ⟨⟨verdict, hresult⟩, -⟩ := hcourse.third hsent
    obtain ⟨response, hparse⟩ := Response.parse_eq_ok_iff.mpr hlong
    rw [heard_of_parse hparse] at hresult
    exact ⟨verdict response, hresult⟩

/-- Whatever the link does, a transaction takes one of the courses. What it sends are requests in their order, each of
them read as it was meant, and every kind of answer has its own outcome. -/
theorem transact_classified (link : Link σ) (code : TransactionCode) (h : Hosted (Linked (σ × List Exchange))) :
    ∃ sent requests,
      ((transact link.recorded code).outcome h).2.own.link.2 = h.own.link.2 ++ sent ∧
      Course h.own.reader code sent ((transact link.recorded code).outcome h).1 ∧
      Sends h.own.reader.configuration code requests ∧ sent.map (·.1) = requests.map Request.encode ∧
      (∀ request ∈ requests, Request.decode request.encode = .ok request.named) ∧
      Classified h.own.reader.configuration sent ((transact link.recorded code).outcome h).1 := by
  obtain ⟨sent, result, ⟨h', hrun, hrecord⟩, hcourse⟩ := records_transact link code h
  obtain ⟨requests, hsends, hframes⟩ := hcourse.sends
  rw [hrun]
  exact ⟨sent, requests, hrecord, hcourse, hsends, hframes, hsends.decode, hcourse.classified⟩

/-- A link that brings nothing back. -/
def mute : Link Unit := fun _ => throw "no answer"

example (h : Hosted (Linked (Unit × List Exchange))) :
    ((transact mute.recorded .unlock).outcome h).1 = .error (.transport "no answer") ∧
    ((transact mute.recorded .unlock).outcome h).2.own.link.2 =
      h.own.link.2 ++ [(SelectCommand.access.encode, .error "no answer")] := ⟨rfl, rfl⟩

end TapAccess.Reader
