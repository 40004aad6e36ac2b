import TapAccess.Proofs.Endpoint.Acceptance
import TapAccess.Proofs.Message.Commands

/-!
# Failed commands leave no trace

`answer_atomic`: whatever frame an endpoint is given, in whatever state, it answers with a status word at the end,
and when that is not the one of success, the answer is nothing else, the endpoint is what it was before, and
nothing has been drawn.

All of a command's conditions are met before it changes anything, except in one place: AUTH1 keeps the shared key
before the endpoint signs. A signature that does not come about would leave that key behind; `Signs` says that the
handshake at hand is not such a case.
-/

namespace TapAccess

namespace Endpoint

open TapAccess.Action

/-- The endpoint comes to a signature of the handshake that waits for AUTH1. -/
def Signs (e : Endpoint) : Prop :=
  ∀ session, (e.transaction = .auth0FastDone session ∨ e.transaction = .auth0StandardDone session) →
    ∃ signature, Signature.make session.credential.keyPair.privateKey
      (session.handshake.authenticationData .endpoint) = .ok signature

variable {e : Endpoint} {random : RandomSource}

/-- The one failure that would leave something behind does not occur. -/
theorem settle_eq_of_error {request : Request} {cause : ProtocolError} (hsigns : e.Signs)
    (herror : (e.settle random request).result = .error cause) :
    e.settle random request = ⟨.error cause, e, random⟩ := by
  rcases settle_of_error herror with hkept | ⟨session, hopen, hunsigned, -⟩
  · exact hkept
  · -- the endpoint has a signature here, and a signature can always be sealed
    obtain ⟨signature, hmade⟩ := hsigns session hopen
    obtain ⟨channel, sealed, hsigned, -⟩ :=
      exists_countersigned ((session.derivation e.versions.encode).channelKeys session.secret) hmade
    rw [hsigned] at hunsigned
    cases hunsigned

theorem reply_cases (hsigns : e.Signs) (random : RandomSource) (frame : Bytes) :
    (e.reply random frame).response.IsSuccess ∨
      ∃ code, e.reply random frame = ⟨.ofCode code, e, random⟩ := by
  cases hdecode : Request.decode frame with
  | error cause =>
    refine Or.inr ⟨cause.responseCode, ?_⟩
    rw [reply, hdecode]
  | ok request =>
    rw [reply_of_decode hdecode]
    cases hresult : (e.settle random request).result with
    | ok response => exact Or.inl (isSuccess_response_iff.mpr ⟨response, hresult⟩)
    | error cause =>
      refine Or.inr ⟨cause.responseCode, ?_⟩
      rw [settle_eq_of_error hsigns hresult]
      rfl

/-- An answer without the status word of success is a status word only, and nothing has changed or been drawn. -/
theorem answer_atomic {ε : Type} (frame : Bytes) (h : Hosted Endpoint) (hsigns : h.own.Signs) :
    ∃ sent after, (answer frame : Action ε Endpoint Bytes) h = .ok sent after ∧ 2 ≤ sent.length ∧
      (sent.drop (sent.length - 2) ≠ [0x90, 0x00] →
        sent.length = 2 ∧ after.own = h.own ∧ after.random = h.random) := by
  have hanswer : Yields (answer frame : Action ε Endpoint Bytes) h _ _ _ := answer_yields frame h
  obtain ⟨log, hrun⟩ := hanswer.run_ok
  refine ⟨_, _, hrun, ?_, ?_⟩
  · rw [Response.length_encode]
    omega
  · intro hfails
    rw [Response.drop_encode] at hfails
    rcases reply_cases hsigns h.random frame with hsuccess | ⟨code, hreply⟩
    · rw [hsuccess] at hfails
      exact absurd rfl hfails
    · rw [hreply]
      exact ⟨Response.length_encode _, rfl, rfl⟩

/-! ### A forged signature -/

/-- A command that asks for a standard transaction, with the generator as the reader's ephemeral key. -/
def standardCommand : Auth0Command where
  fast := false
  transactionCode := .unlock
  version := 0x0100
  readerEphemeral := .generator
  transactionIdentifier := .replicate 16 0x03
  readerIdentifier := ⟨.replicate 16 0x01, .replicate 16 0x02⟩

def waitingSession : Session :=
  sessionOf standardCommand (.ofPrivateKey ⟨5, by decide, by decide⟩)
    ⟨.ofPrivateKey ⟨7, by decide, by decide⟩⟩

/-- An endpoint that knows nobody and waits for AUTH1. -/
def waiting : Hosted Endpoint where
  own := ⟨(CredentialStore.create ⟨fun _ => 0x04, 0⟩).1, .auth0StandardDone waitingSession, .standard⟩
  random := ⟨fun _ => 0x05, 0⟩
  log := []

/-- AUTH1 with a signature of zeros. -/
def forgery : Bytes := (Auth1Command.ofSignature (.replicate 64 0x00)).encode

theorem decode_forgery : Request.decode forgery = .ok (.auth1 (.ofSignature (.replicate 64 0x00))) :=
  Auth1Command.decode_ofSignature _

theorem verify_zeros (key : PublicKey) (message : Bytes) :
    Signature.verify key message (Octets.replicate 64 0x00).toList = false := rfl

theorem signs_waiting : waiting.own.Signs := by
  rintro session (hopen | hopen)
  · cases hopen
  · cases hopen
    exact Except.exists_eq_ok_of_toBool (by decide +kernel)

theorem reply_forgery : (waiting.own.reply waiting.random forgery).response = .ofCode .genericError := by
  have hsettle : waiting.own.settle waiting.random (.auth1 (.ofSignature (.replicate 64 0x00))) =
      ⟨.error (.invalidSignature "reader"), waiting.own, waiting.random⟩ := by
    have hopen : waiting.own.transaction = .auth0FastDone waitingSession ∨
        waiting.own.transaction = .auth0StandardDone waitingSession := Or.inr rfl
    rw [settle, settleAuth1_of_open hopen, settleSession, Auth1Command.ofSignature, verify_zeros]
    rfl
  rw [reply_of_decode decode_forgery, hsettle]
  rfl

theorem answer_atomic_forgery : waiting.own.Signs ∧ ∃ after,
    (answer forgery : Action Empty Endpoint Bytes) waiting = .ok [0x64, 0x00] after ∧
      after.own = waiting.own ∧ after.random = waiting.random := by
  obtain ⟨sent, after, hrun, -, hfails⟩ := @answer_atomic Empty forgery waiting signs_waiting
  have hanswer : Yields (answer forgery : Action Empty Endpoint Bytes) waiting _ _ _ := answer_yields forgery waiting
  obtain ⟨log, hreply⟩ := hanswer.run_ok
  rw [reply_forgery, hrun, EStateM.Result.ok.injEq] at hreply
  have hsent : sent = [0x64, 0x00] := hreply.1
  subst hsent
  exact ⟨signs_waiting, after, hrun, (hfails (by decide)).2⟩

end Endpoint

end TapAccess
