import Mathlib.Data.List.Forall2
import TapAccess.Proofs.Endpoint.Order

/-!
# Enrolment does not show

Two endpoints that support the same versions get the same frames, and nothing is assumed of what they keep: either
may know the reader, its group, a key that is shared with it, or nobody. `enrolment_does_not_show`: as long as they
judge the signatures of readers in the same way, no reader can tell them apart by the shape of their answers. Status
words and lengths are the same, and so are the objects in the answer to AUTH0; with the same ephemeral keys the
answers are even the same bytes, except for cryptograms and for what AUTH1 is answered with.

The two runs are followed side by side: `Alike` endpoints treat a frame in one of three ways (`Parallel`), and are
alike again afterwards.
-/

namespace TapAccess

/-- The tag of an object and the length of what it holds. -/
def Tlv.Object.outline : Tlv.Object → Bytes × Nat
  | primitive tag value _ => (tag.bytes, value.length)
  | constructed tag children _ => (tag.bytes, (encodeAll children).length)

/-- The objects in an answer to AUTH0: a key, and a cryptogram with it when a fast transaction is asked for. -/
def Auth0Command.outlines (c : Auth0Command) : List (Bytes × Nat) :=
  ([0x86], 65) :: if c.fast then [([0x9D], 16)] else []

namespace Endpoint

/-! ### What a reader sees -/

/-- The signature in AUTH1 comes to be verified, with the given verdict. -/
def Moment.Judges (m : Moment) (verdict : Bool) : Prop :=
  ∃ bytes c session, m.stimulus = .frame bytes ∧ Request.decode bytes = .ok (.auth1 c) ∧
    openSession? m.before.own.transaction = some session ∧
    Signature.verify (m.before.own.store.groupKey session.readerIdentifier.group)
      (session.handshake.authenticationData .reader) c.readerSignature.toList = verdict

/-- Where both verify a signature, they come to the same verdict. -/
def SameVerdict (m₁ m₂ : Moment) : Prop := ∀ v₁ v₂, m₁.Judges v₁ → m₂.Judges v₂ → v₁ = v₂

/-- The payload of the answer is made of objects with the given outlines. -/
def Moment.Outlines (m : Moment) (outlines : List (Bytes × Nat)) : Prop :=
  ∃ response objects, m.Brings response ∧ Tlv.Object.parse response.payload = .ok objects ∧
    objects.map Tlv.Object.outline = outlines

/-- The status word at the end of an answer. -/
def statusOf (answer : Bytes) : Bytes := answer.drop (answer.length - 2)

/-- The answers have one shape, and the transactions have come equally far. -/
structure SameShape (m₁ m₂ : Moment) : Prop where
  length : m₁.answer.map List.length = m₂.answer.map List.length
  status : m₁.answer.map statusOf = m₂.answer.map statusOf
  accepts : ∀ request, m₁.Accepts request ↔ m₂.Accepts request
  outlines : ∀ c, m₁.Accepts (.auth0 c) → m₁.Outlines c.outlines ∧ m₂.Outlines c.outlines
  phase : m₁.after.own.transaction.phase = m₂.after.own.transaction.phase

/-- For an accepted AUTH0 both draw the same key pair. -/
def SameEphemeral (m₁ m₂ : Moment) : Prop :=
  ∀ c, m₁.Accepts (.auth0 c) → m₁.before.random.keyPair.1 = m₂.before.random.keyPair.1

/-- The answers differ in nothing but the cryptogram of a fast transaction, if AUTH1 is not what they answer. -/
def SameBytes (m₁ m₂ : Moment) : Prop :=
  (∀ c, ¬ m₁.Accepts (.auth1 c)) → m₁.answer = m₂.answer ∨
    ∃ (c : Auth0Command) (front : Bytes) (cryptogram₁ cryptogram₂ : Cryptogram),
      m₁.Accepts (.auth0 c) ∧ c.fast ∧
      m₁.answer = some (front ++ cryptogram₁.toList ++ [0x90, 0x00]) ∧
      m₂.answer = some (front ++ cryptogram₂.toList ++ [0x90, 0x00])

/-! ### Accepted handshakes -/

variable {h h₁ h₂ : Hosted Endpoint} {s : Stimulus}

theorem answer_of_auth0 {c : Auth0Command} (haccepts : (Moment.of h s).Accepts (.auth0 c)) :
    (Moment.of h s).answer = some (h.own.openedResponse c (h.own.freshSession h.random c)).toResponse.encode ∧
    (Moment.of h s).after.own.transaction.phase = if c.fast then .auth0FastDone else .auth0StandardDone := by
  obtain ⟨bytes, response, rfl, hdecode, hok⟩ := accepts_iff.mp haccepts
  obtain ⟨-, -, -, hsettle⟩ := settleAuth0_eq_of_ok hok
  change h.own.settle h.random (.auth0 c) = _ at hsettle
  obtain ⟨-, hanswer, hafter⟩ := react_of_settle hdecode hsettle
  refine ⟨hanswer, ?_⟩
  show (react h (.frame bytes)).2.own.transaction.phase = _
  rw [hafter, openedTransaction]
  by_cases hfast : c.fast
  · rw [if_pos hfast, if_pos hfast]
    rfl
  · rw [if_neg hfast, if_neg hfast]
    rfl

theorem answer_of_auth1 {c : Auth1Command} (haccepts : (Moment.of h s).Accepts (.auth1 c)) :
    (∃ ciphertext, (Moment.of h s).answer = some (Response.ok ciphertext).encode ∧ ciphertext.length = 152) ∧
    (Moment.of h s).after.own.transaction.phase = .auth1Done := by
  obtain ⟨bytes, response, rfl, hdecode, hok⟩ := accepts_iff.mp haccepts
  obtain ⟨session, channel, ⟨status, ciphertext⟩, -, -, hsigned, -, hsettle⟩ := settleAuth1_eq_of_ok hok
  change h.own.settle h.random (.auth1 c) = _ at hsettle
  obtain ⟨-, hanswer, hafter⟩ := react_of_settle hdecode hsettle
  have hstatus : status = .known .ok := status_of_countersigned hsigned
  subst hstatus
  refine ⟨⟨ciphertext, hanswer, length_of_countersigned hsigned⟩, ?_⟩
  show (react h (.frame bytes)).2.own.transaction.phase = _
  rw [hafter]
  rfl

theorem outlines_of_auth0 {c : Auth0Command} (haccepts : (Moment.of h s).Accepts (.auth0 c)) :
    (Moment.of h s).Outlines c.outlines := by
  have hanswer := (answer_of_auth0 haccepts).1
  refine ⟨_, _, ⟨_, hanswer, Response.parse_encode_ok _⟩,
    Tlv.Object.parse_encodeAll (Auth0Response.allEncodable_toObjects _), ?_⟩
  unfold openedResponse Auth0Command.outlines Auth0Response.toObjects
  by_cases hfast : c.fast
  · rw [if_pos hfast, if_pos hfast]
    simp [Tlv.Object.endpointEphemeral, Tlv.Object.ofValue, Tlv.Object.outline, Tlv.Tag.ofByte, Octets.length_toList]
  · rw [if_neg hfast, if_neg hfast]
    simp [Tlv.Object.endpointEphemeral, Tlv.Object.ofValue, Tlv.Object.outline, Tlv.Tag.ofByte, Octets.length_toList]

/-! ### One moment of both -/

/-- The endpoints support the same versions and have come equally far. -/
structure Alike (e₁ e₂ : Endpoint) : Prop where
  versions : e₁.versions = e₂.versions
  phase : e₁.transaction.phase = e₂.transaction.phase

/-- What can happen at two endpoints that are alike. -/
inductive Parallel (m₁ m₂ : Moment) : Prop
  /-- They give the same answer and move on to the same phase. -/
  | same (hanswer : m₁.answer = m₂.answer)
      (hphase : m₁.after.own.transaction.phase = m₂.after.own.transaction.phase)
  /-- They accept AUTH0. -/
  | opened (c : Auth0Command) (haccepts₁ : m₁.Accepts (.auth0 c)) (haccepts₂ : m₂.Accepts (.auth0 c))
  /-- They accept AUTH1. -/
  | completed (c : Auth1Command) (haccepts₁ : m₁.Accepts (.auth1 c)) (haccepts₂ : m₂.Accepts (.auth1 c))

variable {bytes : Bytes}

theorem parallel_of_settle {request : Request} (hdecode : Request.decode bytes = .ok request)
    (hresponse : (h₁.own.settle h₁.random request).response = (h₂.own.settle h₂.random request).response)
    (hphase : (h₁.own.settle h₁.random request).endpoint.transaction.phase =
      (h₂.own.settle h₂.random request).endpoint.transaction.phase) :
    Parallel (.of h₁ (.frame bytes)) (.of h₂ (.frame bytes)) := by
  refine .same ?_ ?_
  · show (react h₁ (.frame bytes)).1 = (react h₂ (.frame bytes)).1
    rw [answer_of_decode hdecode, answer_of_decode hdecode, hresponse]
  · show (react h₁ (.frame bytes)).2.own.transaction.phase = (react h₂ (.frame bytes)).2.own.transaction.phase
    rw [react_of_decode hdecode, react_of_decode hdecode, hphase]

theorem parallel_of_error {request : Request} {cause : ProtocolError} (halike : Alike h₁.own h₂.own)
    (hdecode : Request.decode bytes = .ok request)
    (hsettle₁ : h₁.own.settle h₁.random request = ⟨.error cause, h₁.own, h₁.random⟩)
    (hsettle₂ : h₂.own.settle h₂.random request = ⟨.error cause, h₂.own, h₂.random⟩) :
    Parallel (.of h₁ (.frame bytes)) (.of h₂ (.frame bytes)) := by
  refine parallel_of_settle hdecode ?_ ?_
  · rw [hsettle₁, hsettle₂]
    rfl
  · rw [hsettle₁, hsettle₂]
    exact halike.phase

theorem parallel_of_move {request : Request} {target : Transaction} {answered : Response}
    (halike : Alike h₁.own h₂.own) (hdecode : Request.decode bytes = .ok request)
    (hsettle₁ : h₁.own.settle h₁.random request = h₁.own.settleMove h₁.random target answered)
    (hsettle₂ : h₂.own.settle h₂.random request = h₂.own.settleMove h₂.random target answered) :
    Parallel (.of h₁ (.frame bytes)) (.of h₂ (.frame bytes)) := by
  by_cases hlegal : Phase.Legal h₁.own.transaction.phase target.phase
  · rw [settleMove_of_legal _ _ hlegal] at hsettle₁
    rw [halike.phase] at hlegal
    rw [settleMove_of_legal _ _ hlegal] at hsettle₂
    refine parallel_of_settle hdecode ?_ ?_
    · rw [hsettle₁, hsettle₂]
      rfl
    · rw [hsettle₁, hsettle₂]
  · rw [settleMove, if_neg hlegal] at hsettle₁
    rw [halike.phase] at hlegal hsettle₁
    rw [settleMove, if_neg hlegal] at hsettle₂
    exact parallel_of_error halike hdecode hsettle₁ hsettle₂

theorem parallel_of_auth0 {c : Auth0Command} (halike : Alike h₁.own h₂.own)
    (hdecode : Request.decode bytes = .ok (.auth0 c)) :
    Parallel (.of h₁ (.frame bytes)) (.of h₂ (.frame bytes)) := by
  by_cases hphase : h₁.own.transaction.phase = .selectDone
  · by_cases hversion : h₁.own.versions.Supports c.version
    · have hsettle₁ : h₁.own.settle h₁.random (.auth0 c) = _ := settleAuth0_of_ready h₁.random hphase hversion
      rw [halike.phase] at hphase
      rw [halike.versions] at hversion
      have hsettle₂ : h₂.own.settle h₂.random (.auth0 c) = _ := settleAuth0_of_ready h₂.random hphase hversion
      exact .opened c (react_of_settle hdecode hsettle₁).1 (react_of_settle hdecode hsettle₂).1
    · have hunsupported {e : Endpoint} {random : RandomSource} (hready : e.transaction.phase = .selectDone)
          (hversion : ¬ e.versions.Supports c.version) :
          e.settle random (.auth0 c) = ⟨.error (.unsupportedVersion c.version), e, random⟩ := by
        show e.settleAuth0 random c = _
        rw [settleAuth0, if_neg (not_not_intro hready), if_pos hversion]
      refine parallel_of_error halike hdecode (hunsupported hphase hversion) ?_
      rw [halike.phase] at hphase
      rw [halike.versions] at hversion
      exact hunsupported hphase hversion
  · have hearly {e : Endpoint} {random : RandomSource} (hphase : e.transaction.phase ≠ .selectDone) :
        e.settle random (.auth0 c) = ⟨.error (.outOfOrder "SELECT"), e, random⟩ := if_pos hphase
    refine parallel_of_error halike hdecode (hearly hphase) ?_
    rw [halike.phase] at hphase
    exact hearly hphase

theorem accepts_of_verify {c : Auth1Command} {session : Session} (hdecode : Request.decode bytes = .ok (.auth1 c))
    (hopen : openSession? h.own.transaction = some session) (hsigns : h.own.Signs)
    (hverify : Signature.verify (h.own.store.groupKey session.readerIdentifier.group)
      (session.handshake.authenticationData .reader) c.readerSignature.toList = true) :
    (Moment.of h (.frame bytes)).Accepts (.auth1 c) := by
  have hwaits := openSession?_eq_some_iff.mp hopen
  obtain ⟨signature, hmade⟩ := hsigns session hwaits
  obtain ⟨channel, sealed, hsigned, -⟩ :=
    exists_countersigned ((session.derivation h.own.versions.encode).channelKeys session.secret) hmade
  have hsettle : h.own.settle h.random (.auth1 c) = _ :=
    (settleAuth1_of_open hwaits).trans (settleSession_of_verify hverify hsigned)
  exact (react_of_settle hdecode hsettle).1

theorem settle_of_forged {e : Endpoint} {random : RandomSource} {c : Auth1Command} {session : Session}
    (hopen : openSession? e.transaction = some session)
    (hforged : Signature.verify (e.store.groupKey session.readerIdentifier.group)
      (session.handshake.authenticationData .reader) c.readerSignature.toList = false) :
    e.settle random (.auth1 c) = ⟨.error (.invalidSignature "reader"), e, random⟩ := by
  show e.settleAuth1 random c = _
  rw [settleAuth1_of_open (openSession?_eq_some_iff.mp hopen), settleSession, hforged]
  rfl

theorem settle_of_closed {e : Endpoint} {random : RandomSource} {c : Auth1Command}
    (hclosed : openSession? e.transaction = none) :
    e.settle random (.auth1 c) = ⟨.error (.outOfOrder "AUTH0"), e, random⟩ := by
  show e.settleAuth1 random c = _
  unfold settleAuth1
  cases htransaction : e.transaction with
  | initial | selectDone | auth1Done session => rfl
  | auth0FastDone session | auth0StandardDone session =>
    rw [htransaction] at hclosed
    cases hclosed

theorem isSome_openSession? (t : Transaction) :
    (openSession? t).isSome = (t.phase == .auth0FastDone || t.phase == .auth0StandardDone) := by
  cases t <;> rfl

theorem parallel_of_auth1 {c : Auth1Command} (halike : Alike h₁.own h₂.own)
    (hverdict : SameVerdict (.of h₁ (.frame bytes)) (.of h₂ (.frame bytes)))
    (hsigns₁ : (Moment.of h₁ (.frame bytes)).Judges true → h₁.own.Signs)
    (hsigns₂ : (Moment.of h₂ (.frame bytes)).Judges true → h₂.own.Signs)
    (hdecode : Request.decode bytes = .ok (.auth1 c)) :
    Parallel (.of h₁ (.frame bytes)) (.of h₂ (.frame bytes)) := by
  have hsome : (openSession? h₁.own.transaction).isSome = (openSession? h₂.own.transaction).isSome := by
    rw [isSome_openSession?, isSome_openSession?, halike.phase]
  cases hopen₁ : openSession? h₁.own.transaction with
  | none =>
    rw [hopen₁] at hsome
    have hopen₂ : openSession? h₂.own.transaction = none := by
      rw [← Option.not_isSome_iff_eq_none, ← hsome]
      exact Bool.false_ne_true
    exact parallel_of_error halike hdecode (settle_of_closed hopen₁) (settle_of_closed hopen₂)
  | some session₁ =>
    rw [hopen₁] at hsome
    obtain ⟨session₂, hopen₂⟩ := Option.isSome_iff_exists.mp hsome.symm
    have hjudges₁ : (Moment.of h₁ (.frame bytes)).Judges _ := ⟨bytes, c, session₁, rfl, hdecode, hopen₁, rfl⟩
    have hjudges₂ : (Moment.of h₂ (.frame bytes)).Judges _ := ⟨bytes, c, session₂, rfl, hdecode, hopen₂, rfl⟩
    have hsame := hverdict _ _ hjudges₁ hjudges₂
    cases hverify : Signature.verify (h₁.own.store.groupKey session₁.readerIdentifier.group)
      (session₁.handshake.authenticationData .reader) c.readerSignature.toList with
    | false =>
      exact parallel_of_error halike hdecode (settle_of_forged hopen₁ hverify)
        (settle_of_forged hopen₂ (hsame.symm.trans hverify))
    | true =>
      have hverify₂ := hsame.symm.trans hverify
      exact .completed c (accepts_of_verify hdecode hopen₁ (hsigns₁ (hverify ▸ hjudges₁)) hverify)
        (accepts_of_verify hdecode hopen₂ (hsigns₂ (hverify₂ ▸ hjudges₂)) hverify₂)

theorem parallel_of (halike : Alike h₁.own h₂.own) (hverdict : SameVerdict (.of h₁ s) (.of h₂ s))
    (hsigns₁ : (Moment.of h₁ s).Judges true → h₁.own.Signs)
    (hsigns₂ : (Moment.of h₂ s).Judges true → h₂.own.Signs) : Parallel (.of h₁ s) (.of h₂ s) := by
  cases s with
  | deselect =>
    obtain ⟨log₁, hreact₁⟩ := react_deselect h₁
    obtain ⟨log₂, hreact₂⟩ := react_deselect h₂
    refine .same ?_ ?_
    · rw [Moment.of, Moment.of, hreact₁, hreact₂]
    · rw [Moment.of, Moment.of, hreact₁, hreact₂]
  | frame bytes =>
    cases hdecode : Request.decode bytes with
    | error cause =>
      obtain ⟨log₁, hreact₁⟩ := react_frame h₁ bytes
      obtain ⟨log₂, hreact₂⟩ := react_frame h₂ bytes
      have hreply (e : Endpoint) (random : RandomSource) :
          e.reply random bytes = ⟨.ofCode cause.responseCode, e, random⟩ := by rw [reply, hdecode]
      refine .same ?_ ?_
      · rw [Moment.of, Moment.of, hreact₁, hreact₂, hreply, hreply]
      · rw [Moment.of, Moment.of, hreact₁, hreact₂, hreply, hreply]
        exact halike.phase
    | ok request =>
      cases request with
      | select c =>
        refine parallel_of_move halike hdecode rfl ?_
        rw [halike.versions]
        rfl
      | controlFlow c => exact parallel_of_move halike hdecode rfl rfl
      | auth0 c => exact parallel_of_auth0 halike hdecode
      | auth1 c => exact parallel_of_auth1 halike hverdict hsigns₁ hsigns₂ hdecode

/-! ### Shapes and bytes -/

theorem accepts_iff_of_answer {m₁ m₂ : Moment} (hstimulus : m₁.stimulus = m₂.stimulus)
    (hanswer : m₁.answer = m₂.answer) (request : Request) : m₁.Accepts request ↔ m₂.Accepts request := by
  unfold Moment.Accepts Moment.Succeeds Moment.Brings
  rw [hstimulus, hanswer]

theorem accepts_iff_of_both {m₁ m₂ : Moment} {request : Request} (haccepts₁ : m₁.Accepts request)
    (haccepts₂ : m₂.Accepts request) (request' : Request) : m₁.Accepts request' ↔ m₂.Accepts request' := by
  constructor
  · intro haccepts
    rw [← haccepts₁.unique haccepts]
    exact haccepts₂
  · intro haccepts
    rw [← haccepts₂.unique haccepts]
    exact haccepts₁

theorem status_encode_ok (payload : Bytes) : statusOf (Response.ok payload).encode = [0x90, 0x00] := by
  rw [statusOf, Response.drop_encode]
  exact StatusWord.encode_ok

theorem length_openedResponse (e : Endpoint) (c : Auth0Command) (session : Session) :
    (e.openedResponse c session).toResponse.payload.length = if c.fast then 85 else 67 := by
  rw [openedResponse]
  by_cases hfast : c.fast
  · rw [if_pos hfast, if_pos hfast, Auth0Response.length_payload_of_some]
  · rw [if_neg hfast, if_neg hfast, Auth0Response.length_payload_of_none]

theorem sameShape_of_ok {payload₁ payload₂ : Bytes}
    (hanswer₁ : (Moment.of h₁ s).answer = some (Response.ok payload₁).encode)
    (hanswer₂ : (Moment.of h₂ s).answer = some (Response.ok payload₂).encode)
    (hlength : payload₁.length = payload₂.length)
    (haccepts : ∀ request, (Moment.of h₁ s).Accepts request ↔ (Moment.of h₂ s).Accepts request)
    (hphase : (Moment.of h₁ s).after.own.transaction.phase = (Moment.of h₂ s).after.own.transaction.phase) :
    SameShape (.of h₁ s) (.of h₂ s) where
  length := by
    rw [hanswer₁, hanswer₂, Option.map_some, Option.map_some, Response.length_encode, Response.length_encode,
      Response.ok, Response.ok, hlength]
  status := by rw [hanswer₁, hanswer₂, Option.map_some, Option.map_some, status_encode_ok, status_encode_ok]
  accepts := haccepts
  outlines _ haccepts₁ := ⟨outlines_of_auth0 haccepts₁, outlines_of_auth0 ((haccepts _).mp haccepts₁)⟩
  phase := hphase

theorem Parallel.sameShape (hparallel : Parallel (.of h₁ s) (.of h₂ s)) : SameShape (.of h₁ s) (.of h₂ s) := by
  cases hparallel with
  | same hanswer hphase =>
    have haccepts : ∀ request, (Moment.of h₁ s).Accepts request ↔ (Moment.of h₂ s).Accepts request :=
      accepts_iff_of_answer rfl hanswer
    refine ⟨by rw [hanswer], by rw [hanswer], haccepts, fun c haccepts₁ => ?_, hphase⟩
    exact ⟨outlines_of_auth0 haccepts₁, outlines_of_auth0 ((haccepts _).mp haccepts₁)⟩
  | opened c haccepts₁ haccepts₂ =>
    obtain ⟨hanswer₁, hphase₁⟩ := answer_of_auth0 haccepts₁
    obtain ⟨hanswer₂, hphase₂⟩ := answer_of_auth0 haccepts₂
    exact sameShape_of_ok hanswer₁ hanswer₂ ((length_openedResponse ..).trans (length_openedResponse ..).symm)
      (accepts_iff_of_both haccepts₁ haccepts₂) (hphase₁.trans hphase₂.symm)
  | completed c haccepts₁ haccepts₂ =>
    obtain ⟨⟨ciphertext₁, hanswer₁, hlength₁⟩, hphase₁⟩ := answer_of_auth1 haccepts₁
    obtain ⟨⟨ciphertext₂, hanswer₂, hlength₂⟩, hphase₂⟩ := answer_of_auth1 haccepts₂
    exact sameShape_of_ok hanswer₁ hanswer₂ (hlength₁.trans hlength₂.symm) (accepts_iff_of_both haccepts₁ haccepts₂)
      (hphase₁.trans hphase₂.symm)

theorem endpointEphemeral_freshSession (e : Endpoint) (random : RandomSource) (c : Auth0Command) :
    (e.freshSession random c).endpointEphemeral = random.keyPair.1 := by rw [freshSession, sessionOf]

/-- The endpoint's key is all that an answer to AUTH0 shows besides the cryptogram. -/
theorem Parallel.sameBytes (hparallel : Parallel (.of h₁ s) (.of h₂ s))
    (hephemeral : SameEphemeral (.of h₁ s) (.of h₂ s)) : SameBytes (.of h₁ s) (.of h₂ s) := by
  intro hother
  cases hparallel with
  | same hanswer hphase => exact Or.inl hanswer
  | completed c haccepts₁ haccepts₂ => exact absurd haccepts₁ (hother c)
  | opened c haccepts₁ haccepts₂ =>
    have hanswer₁ := (answer_of_auth0 haccepts₁).1
    have hanswer₂ := (answer_of_auth0 haccepts₂).1
    have hdrawn : h₁.random.keyPair.1 = h₂.random.keyPair.1 := hephemeral c haccepts₁
    rw [openedResponse, endpointEphemeral_freshSession] at hanswer₁ hanswer₂
    rw [hdrawn] at hanswer₁
    by_cases hfast : c.fast
    · rw [if_pos hfast, Auth0Response.encode_of_some] at hanswer₁ hanswer₂
      exact Or.inr ⟨c, _, _, _, haccepts₁, hfast, hanswer₁, hanswer₂⟩
    · rw [if_neg hfast] at hanswer₁ hanswer₂
      exact Or.inl (hanswer₁.trans hanswer₂.symm)

/-! ### Two runs -/

theorem Alike.react (halike : Alike h₁.own h₂.own) (hshape : SameShape (.of h₁ s) (.of h₂ s)) :
    Alike (Endpoint.react h₁ s).2.own (Endpoint.react h₂ s).2.own where
  versions := by
    have hversions₁ : (Endpoint.react h₁ s).2.own.versions = h₁.own.versions := (turn_of h₁ s).versions_eq
    have hversions₂ : (Endpoint.react h₂ s).2.own.versions = h₂.own.versions := (turn_of h₂ s).versions_eq
    rw [hversions₁, hversions₂, halike.versions]
  phase := hshape.phase

theorem Alike.run (halike : Alike h₁.own h₂.own) (stimuli : List Stimulus)
    (hverdicts : List.Forall₂ SameVerdict (history h₁ stimuli) (history h₂ stimuli))
    (hsigns₁ : ∀ m ∈ history h₁ stimuli, m.Judges true → m.before.own.Signs)
    (hsigns₂ : ∀ m ∈ history h₂ stimuli, m.Judges true → m.before.own.Signs) :
    List.Forall₂ (fun m₁ m₂ => SameShape m₁ m₂ ∧ (SameEphemeral m₁ m₂ → SameBytes m₁ m₂))
      (history h₁ stimuli) (history h₂ stimuli) := by
  induction stimuli generalizing h₁ h₂ with
  | nil => exact .nil
  | cons s stimuli ih =>
    rw [history, history] at hverdicts ⊢
    rw [history, List.forall_mem_cons] at hsigns₁ hsigns₂
    rw [List.forall₂_cons] at hverdicts ⊢
    have hparallel := parallel_of halike hverdicts.1 hsigns₁.1 hsigns₂.1
    refine ⟨⟨hparallel.sameShape, hparallel.sameBytes⟩, ?_⟩
    exact ih (halike.react hparallel.sameShape) hverdicts.2 hsigns₁.2 hsigns₂.2

/-- Two new endpoints with the same versions answer the same frames in one shape, and with the same ephemeral keys in
the same bytes but for cryptograms and for the answers to AUTH1, whatever their stores are. They have to agree on the
signatures of readers, and where they accept one they have to come to one of their own. -/
theorem enrolment_does_not_show (store₁ store₂ : CredentialStore) (versions : Versions)
    (random₁ random₂ : RandomSource) (log₁ log₂ : List Event) (stimuli : List Stimulus)
    (hverdicts : List.Forall₂ SameVerdict (history ⟨.new store₁ versions, random₁, log₁⟩ stimuli)
      (history ⟨.new store₂ versions, random₂, log₂⟩ stimuli))
    (hsigns₁ : ∀ m ∈ history ⟨.new store₁ versions, random₁, log₁⟩ stimuli, m.Judges true → m.before.own.Signs)
    (hsigns₂ : ∀ m ∈ history ⟨.new store₂ versions, random₂, log₂⟩ stimuli, m.Judges true → m.before.own.Signs) :
    List.Forall₂ (fun m₁ m₂ => SameShape m₁ m₂ ∧ (SameEphemeral m₁ m₂ → SameBytes m₁ m₂))
      (history ⟨.new store₁ versions, random₁, log₁⟩ stimuli)
      (history ⟨.new store₂ versions, random₂, log₂⟩ stimuli) := by
  have halike : Alike (.new store₁ versions) (.new store₂ versions) := ⟨rfl, rfl⟩
  exact halike.run stimuli hverdicts hsigns₁ hsigns₂

/-! ### Probing for a group -/

/-- A reader that asks for a fast transaction and has no key to sign with. -/
def probing : List Stimulus :=
  [.frame SelectCommand.access.encode, .frame fastCommand.encode, .frame forgery]

/-- An endpoint that knows the reader and its group. -/
def acquaintance : Hosted Endpoint where
  own := .new ((newcomer.own.store.enroll waitingSession.credential
    ⟨waitingSession.readerIdentifier.group, .generator⟩).putPersistentKey waitingSession.readerIdentifier
      ⟨.replicate 32 0x08⟩) .standard
  random := ⟨fun _ => 0x06, 0⟩
  log := []

theorem decode_fastCommand : Request.decode fastCommand.encode = .ok (.auth0 fastCommand) :=
  Auth0Command.decode_encode fastCommand

theorem verdict_probing (hmem : s ∈ probing) {verdict : Bool} (hjudges : (Moment.of h s).Judges verdict) :
    verdict = false := by
  obtain ⟨bytes, c, session, hstimulus, hdecode, -, rfl⟩ := hjudges
  change s = .frame bytes at hstimulus
  subst hstimulus
  rw [probing, List.mem_cons, List.mem_cons, List.mem_singleton, Stimulus.frame.injEq, Stimulus.frame.injEq,
    Stimulus.frame.injEq] at hmem
  rcases hmem with rfl | rfl | rfl
  · rw [decode_select] at hdecode
    cases hdecode
  · rw [decode_fastCommand] at hdecode
    cases hdecode
  · rw [decode_forgery] at hdecode
    cases hdecode
    exact verify_zeros _ _

theorem sameVerdict_of_rejected {stimuli : List Stimulus} (h₁ h₂ : Hosted Endpoint)
    (hrejected : ∀ s ∈ stimuli, ∀ h verdict, (Moment.of h s).Judges verdict → verdict = false) :
    List.Forall₂ SameVerdict (history h₁ stimuli) (history h₂ stimuli) := by
  induction stimuli generalizing h₁ h₂ with
  | nil => exact .nil
  | cons s stimuli ih =>
    rw [List.forall_mem_cons] at hrejected
    refine .cons ?_ (ih _ _ hrejected.2)
    intro v₁ v₂ hjudges₁ hjudges₂
    rw [hrejected.1 _ _ hjudges₁, hrejected.1 _ _ hjudges₂]

theorem not_judges_true_probing (h : Hosted Endpoint) {m : Moment} (hmem : m ∈ history h probing) :
    ¬ m.Judges true := by
  intro hjudges
  obtain ⟨h', s, hprobing, rfl⟩ := exists_of_mem_history hmem
  have hverdict := verdict_probing hprobing hjudges
  cases hverdict

theorem exists_judges_probing (store : CredentialStore) (random : RandomSource) (log : List Event) :
    ∃ m ∈ history ⟨.new store .standard, random, log⟩ probing, m.Judges false := by
  obtain ⟨-, -, hselected⟩ := react_select (h := ⟨.new store .standard, random, log⟩) decode_select
    (show Phase.initial ≠ _ by decide)
  generalize hfirst : (react ⟨.new store .standard, random, log⟩ (.frame SelectCommand.access.encode)).2 = h
    at hselected
  obtain ⟨-, hopened⟩ := react_auth0 (h := h) decode_fastCommand (by rw [hselected]; rfl)
    (by rw [hselected]; exact (by decide : Versions.standard.Supports fastCommand.version))
  have hwaits : (openSession? (react h (.frame fastCommand.encode)).2.own.transaction).isSome := by
    rw [hopened]
    rfl
  obtain ⟨session, hopen⟩ := Option.isSome_iff_exists.mp hwaits
  -- the host stands for itself, so that nothing looks into what it has done
  generalize hsecond : (react h (.frame fastCommand.encode)).2 = h' at hopen
  refine ⟨.of h' (.frame forgery), ?_, ?_⟩
  · rw [probing, history, history, history, history, hfirst, hsecond]
    simp
  · exact ⟨forgery, _, session, rfl, decode_forgery, hopen, verify_zeros _ _⟩

/-- The probe is rejected by both, and it does not tell an acquaintance from a newcomer. -/
theorem enrolment_does_not_show_probing :
    List.Forall₂ SameVerdict (history newcomer probing) (history acquaintance probing) ∧
    (∀ m ∈ history newcomer probing, m.Judges true → m.before.own.Signs) ∧
    (∀ m ∈ history acquaintance probing, m.Judges true → m.before.own.Signs) ∧
    (∃ m ∈ history newcomer probing, m.Judges false) ∧ (∃ m ∈ history acquaintance probing, m.Judges false) ∧
    List.Forall₂ (fun m₁ m₂ => SameShape m₁ m₂ ∧ (SameEphemeral m₁ m₂ → SameBytes m₁ m₂))
      (history newcomer probing) (history acquaintance probing) := by
  have hverdicts := sameVerdict_of_rejected newcomer acquaintance fun s hmem h verdict => verdict_probing hmem
  have hsigns (h : Hosted Endpoint) : ∀ m ∈ history h probing, m.Judges true → m.before.own.Signs :=
    fun m hmem hjudges => absurd hjudges (not_judges_true_probing h hmem)
  exact ⟨hverdicts, hsigns newcomer, hsigns acquaintance, exists_judges_probing _ _ _, exists_judges_probing _ _ _,
    enrolment_does_not_show _ _ .standard _ _ _ _ probing hverdicts (hsigns newcomer) (hsigns acquaintance)⟩

end Endpoint

end TapAccess
