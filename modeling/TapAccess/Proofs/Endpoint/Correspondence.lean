import TapAccess.Proofs.Endpoint.History
import TapAccess.Proofs.Message.Responses

/-!
# AUTH1 answers AUTH0, one to one

`auth1_corresponds`: in every history of a new endpoint, an AUTH1 that is accepted belongs to exactly one AUTH0
that was accepted before it, and an AUTH0 has at most one such AUTH1. Between the two the endpoint was not
deselected and accepted nothing (`Corresponds`), and the signature in AUTH1 is one of that very handshake: of the
names and the key in AUTH0 and the key in the answer to it.

The invariant that carries this along a history is `Pending`: while a session is open, the history so far ends
in the AUTH0 that opened it, followed by nothing that interrupts.
-/

namespace TapAccess.Endpoint

/-! ### The relation -/

/-- The answer reads as one to AUTH0 with the given ephemeral key. -/
def Moment.Offers (m : Moment) (endpointEphemeral : PublicKey) : Prop :=
  ∃ response answered, m.Brings response ∧ Auth0Response.ofResponse response = .ok answered ∧
    answered.endpointEphemeral = endpointEphemeral

/-- The handshake that AUTH0 opens when it is answered with the given ephemeral key. -/
def handshakeOf (c : Auth0Command) (endpointEphemeral : PublicKey) : Handshake where
  readerIdentifier := c.readerIdentifier
  readerEphemeral := c.readerEphemeral
  endpointEphemeral := endpointEphemeral
  transactionIdentifier := c.transactionIdentifier

/-- The moment `closing` accepts a signature of the handshake that the moment `opening` opened, under the key
that is stored at `closing` for the readers of the group that `opening` named. -/
def Moment.Closes (closing opening : Moment) : Prop :=
  ∃ c₀ c₁ endpointEphemeral, opening.Accepts (.auth0 c₀) ∧ opening.Offers endpointEphemeral ∧
    closing.Accepts (.auth1 c₁) ∧
    Signature.verify (closing.before.own.store.groupKey c₀.readerIdentifier.group)
      ((handshakeOf c₀ endpointEphemeral).authenticationData .reader) c₁.readerSignature.toList = true

/-- AUTH1 at index `j` closes what AUTH0 at index `i` opened, and nothing interrupts between the two. -/
def Corresponds (moments : List Moment) (i j : Nat) : Prop :=
  i < j ∧ (∀ k m, i < k → k < j → moments[k]? = some m → ¬ m.Interrupts) ∧
    ∃ opening closing, moments[i]? = some opening ∧ moments[j]? = some closing ∧ closing.Closes opening

theorem Corresponds.unique_left {moments : List Moment} {i i' j : Nat} (hi : Corresponds moments i j)
    (hi' : Corresponds moments i' j) : i = i' := by
  -- an AUTH0 is in the way of any earlier one
  have hle {a b : Nat} (ha : Corresponds moments a j) (hb : Corresponds moments b j) : b ≤ a := by
    obtain ⟨-, hquiet, -⟩ := ha
    obtain ⟨hlt, -, opening, _, hopening, -, _, _, _, haccepts, -⟩ := hb
    rcases Nat.lt_or_ge a b with hbetween | hge
    · exact absurd haccepts.interrupts (hquiet b opening hbetween hlt hopening)
    · exact hge
  exact Nat.le_antisymm (hle hi' hi) (hle hi hi')

theorem Corresponds.unique_right {moments : List Moment} {i j j' : Nat} (hj : Corresponds moments i j)
    (hj' : Corresponds moments i j') : j = j' := by
  -- an AUTH1 is in the way of any later one
  have hle {a b : Nat} (ha : Corresponds moments i a) (hb : Corresponds moments i b) : a ≤ b := by
    obtain ⟨-, hquiet, -⟩ := ha
    obtain ⟨hlt, -, _, closing, -, hclosing, _, _, _, -, -, haccepts, -⟩ := hb
    rcases Nat.lt_or_ge b a with hbetween | hge
    · exact absurd haccepts.interrupts (hquiet b closing hlt hbetween hclosing)
    · exact hge
  exact Nat.le_antisymm (hle hj hj') (hle hj' hj)

/-! ### Open sessions -/

/-- The session that waits for AUTH1. -/
def openSession? : Transaction → Option Session
  | .auth0FastDone session | .auth0StandardDone session => some session
  | _ => none

/-- The moment opened the session: it accepted an AUTH0 with the session's names and reader key, and offered the
session's own key. -/
def Moment.Opens (m : Moment) (session : Session) : Prop :=
  ∃ c, m.Accepts (.auth0 c) ∧ m.Offers session.endpointEphemeral.publicKey ∧
    session.handshake = handshakeOf c session.endpointEphemeral.publicKey

/-- While a session is open, what has been going on ends in its AUTH0 and nothing that interrupts. -/
def Pending (past : List Moment) (h : Hosted Endpoint) : Prop :=
  ∀ session, openSession? h.own.transaction = some session →
    ∃ earlier opening quiet, past = earlier ++ opening :: quiet ∧ opening.Opens session ∧
      ∀ m ∈ quiet, ¬ m.Interrupts

variable {h : Hosted Endpoint}

theorem openSession?_eq_some_iff {t : Transaction} {session : Session} :
    openSession? t = some session ↔ t = .auth0FastDone session ∨ t = .auth0StandardDone session := by
  cases t <;> simp [openSession?]

theorem session?_of_open {t : Transaction} {session : Session} (hopen : openSession? t = some session) :
    t.session? = some session := by
  rcases openSession?_eq_some_iff.mp hopen with rfl | rfl
  · rfl
  · rfl

theorem session?_openedTransaction {e : Endpoint} {c : Auth0Command} {fresh session : Session}
    (hsession : (e.openedTransaction c fresh).session? = some session) :
    ∃ channel, session = { fresh with channel } := by
  unfold openedTransaction at hsession
  split at hsession
  · cases hsession
    exact ⟨_, rfl⟩
  · cases hsession
    exact ⟨_, rfl⟩

theorem offers_of_auth0 {bytes : Bytes} {c : Auth0Command} {response : Response}
    (hdecode : Request.decode bytes = .ok (.auth0 c))
    (hok : (h.own.settle h.random (.auth0 c)).result = .ok response) :
    (Moment.of h (.frame bytes)).Offers (h.own.freshSession h.random c).endpointEphemeral.publicKey := by
  obtain ⟨-, -, -, hsettle⟩ := settleAuth0_eq_of_ok hok
  have hresponse : (h.own.reply h.random bytes).response =
      (h.own.openedResponse c (h.own.freshSession h.random c)).toResponse := by
    unfold reply
    rw [hdecode]
    show (h.own.settleAuth0 h.random c).response = _
    rw [hsettle]
    rfl
  refine ⟨_, h.own.openedResponse c (h.own.freshSession h.random c), brings_frame_iff.mpr rfl, ?_, rfl⟩
  rw [hresponse]
  exact Auth0Response.ofResponse_toResponse _

theorem opens_of_auth0 {bytes : Bytes} {c : Auth0Command} {response : Response} {session : Session}
    (hdecode : Request.decode bytes = .ok (.auth0 c))
    (hok : (h.own.settle h.random (.auth0 c)).result = .ok response)
    (hopen : openSession? (react h (.frame bytes)).2.own.transaction = some session) :
    (Moment.of h (.frame bytes)).Opens session := by
  obtain ⟨-, -, -, hsettle⟩ := settleAuth0_eq_of_ok hok
  rw [react_of_decode hdecode] at hopen
  change openSession? (h.own.settleAuth0 h.random c).endpoint.transaction = _ at hopen
  rw [hsettle] at hopen
  obtain ⟨channel, rfl⟩ := session?_openedTransaction (session?_of_open hopen)
  exact ⟨c, accepts_iff.mpr ⟨bytes, response, rfl, hdecode, hok⟩, offers_of_auth0 hdecode hok, rfl⟩

theorem openSession?_of_ok {bytes : Bytes} {request : Request} {response : Response}
    (hdecode : Request.decode bytes = .ok request)
    (hok : (h.own.settle h.random request).result = .ok response) (hother : ∀ c, request ≠ .auth0 c) :
    openSession? (react h (.frame bytes)).2.own.transaction = none := by
  rw [react_of_decode hdecode]
  cases request with
  | auth0 c => exact absurd rfl (hother c)
  | select c =>
    show openSession? (h.own.settleMove _ _ _).endpoint.transaction = _
    rw [(settleMove_eq_of_ok hok).2.2]
    rfl
  | controlFlow c =>
    show openSession? (h.own.settleMove _ _ _).endpoint.transaction = _
    rw [(settleMove_eq_of_ok hok).2.2]
    rfl
  | auth1 c =>
    obtain ⟨session, channel, answered, -, -, -, -, hsettle⟩ := settleAuth1_eq_of_ok hok
    show openSession? (h.own.settleAuth1 h.random c).endpoint.transaction = _
    rw [hsettle]
    rfl

theorem Pending.react {past : List Moment} (hpending : Pending past h) (s : Stimulus) :
    Pending (past ++ [.of h s]) (Endpoint.react h s).2 := by
  intro session hopen
  apply since_append_singleton.mpr
  cases s with
  | deselect =>
    obtain ⟨log, hreact⟩ := react_deselect h
    rw [hreact] at hopen
    cases hopen
  | frame bytes =>
    by_cases hsucceeds : (Moment.of h (.frame bytes)).Succeeds
    · obtain ⟨request, response, hdecode, hok⟩ := succeeds_frame_iff.mp hsucceeds
      by_cases hauth0 : ∃ c, request = .auth0 c
      · obtain ⟨c, rfl⟩ := hauth0
        exact Or.inl (opens_of_auth0 hdecode hok hopen)
      · rw [openSession?_of_ok hdecode hok fun c hc => hauth0 ⟨c, hc⟩] at hopen
        cases hopen
    · rw [transaction_of_not_succeeds hsucceeds] at hopen
      refine Or.inr ⟨?_, hpending session hopen⟩
      rintro (hdeselect | hsuccess)
      · cases hdeselect
      · exact hsucceeds hsuccess

theorem Pending.run {past : List Moment} (hpending : Pending past h) (stimuli : List Stimulus) :
    Pending (past ++ history h stimuli) (Endpoint.run h stimuli) :=
  run_induction (fun _ _ s hpast => hpast.react s) stimuli hpending

/-! ### Accepted signatures -/

theorem closes_of_opens {opening : Moment} {s : Stimulus} {c : Auth1Command} {session : Session}
    (hopen : openSession? h.own.transaction = some session) (hopens : opening.Opens session)
    (haccepts : (Moment.of h s).Accepts (.auth1 c)) : (Moment.of h s).Closes opening := by
  obtain ⟨bytes, response, rfl, hdecode, hok⟩ := accepts_iff.mp haccepts
  obtain ⟨session', _, _, hsession, hverify, -⟩ := settleAuth1_eq_of_ok hok
  rw [← openSession?_eq_some_iff, hopen, Option.some.injEq] at hsession
  subst hsession
  obtain ⟨c₀, hauth0, hoffers, hhandshake⟩ := hopens
  refine ⟨c₀, c, session.endpointEphemeral.publicKey, hauth0, hoffers, haccepts, ?_⟩
  rw [← hhandshake]
  have hgroup : c₀.readerIdentifier = session.readerIdentifier :=
    (congrArg Handshake.readerIdentifier hhandshake).symm
  rw [hgroup]
  exact hverify

theorem corresponds_of_pending {past : List Moment} {s : Stimulus} {c : Auth1Command} (later : List Moment)
    (hpending : Pending past h) (haccepts : (Moment.of h s).Accepts (.auth1 c)) :
    ∃ i, Corresponds (past ++ .of h s :: later) i past.length := by
  obtain ⟨bytes, response, -, -, hok⟩ := accepts_iff.mp haccepts
  obtain ⟨session, _, _, hsession, -⟩ := settleAuth1_eq_of_ok hok
  have hopen := openSession?_eq_some_iff.mpr hsession
  obtain ⟨earlier, opening, quiet, rfl, hopens, hquiet⟩ := hpending session hopen
  refine ⟨earlier.length, by simp, ?_, opening, .of h s, by simp, by simp, closes_of_opens hopen hopens haccepts⟩
  intro k m hlow hhigh hm
  apply hquiet
  rw [List.getElem?_append_left hhigh] at hm
  obtain ⟨more, rfl⟩ : ∃ more, k = earlier.length + 1 + more := ⟨k - earlier.length - 1, by omega⟩
  rw [List.getElem?_append_right (by omega)] at hm
  have hindex : earlier.length + 1 + more - earlier.length = more + 1 := by omega
  rw [hindex, List.getElem?_cons_succ] at hm
  exact List.mem_of_getElem? hm

/-- In every history of a new endpoint each accepted AUTH1 belongs to exactly one accepted AUTH0, and no two of
them to the same. -/
theorem auth1_corresponds (store : CredentialStore) (versions : Versions) (random : RandomSource)
    (log : List Event) (stimuli : List Stimulus) :
    (∀ j closing c, (history ⟨.new store versions, random, log⟩ stimuli)[j]? = some closing →
      closing.Accepts (.auth1 c) →
      ∃ i, Corresponds (history ⟨.new store versions, random, log⟩ stimuli) i j ∧
        ∀ i', Corresponds (history ⟨.new store versions, random, log⟩ stimuli) i' j → i' = i) ∧
    (∀ i j j', Corresponds (history ⟨.new store versions, random, log⟩ stimuli) i j →
      Corresponds (history ⟨.new store versions, random, log⟩ stimuli) i j' → j = j') := by
  refine ⟨fun j closing c hclosing haccepts => ?_, fun i j j' hj hj' => hj.unique_right hj'⟩
  obtain ⟨earlier, s, later, rfl, rfl, rfl⟩ := history_split hclosing
  have hnew : Pending [] ⟨.new store versions, random, log⟩ := fun session hopen => by cases hopen
  obtain ⟨i, hi⟩ := corresponds_of_pending (history _ later) (hnew.run earlier) haccepts
  rw [List.nil_append, length_history] at hi
  rw [history_append, history]
  exact ⟨i, hi, fun i' hi' => hi'.unique_left hi⟩

end TapAccess.Endpoint
