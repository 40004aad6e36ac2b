import TapAccess.Proofs.Endpoint.Atomicity
import TapAccess.Proofs.Message.Refusals

/-!
# What a status word tells

The status words of the answers tell apart the frames that are no request and the requests that are turned down. A
request is answered with success or with the one status word for whatever goes wrong while it is acted on
(`responseCode_of_settle`). A frame that is no request is answered with the status word of its first defect, which is
never one of these two. So the reader can tell from the last two bytes of the answer whether its frame was understood
(`status_words`).
-/

namespace TapAccess

theorem Defect.status_ne (defect : Defect) : defect.status ≠ [0x90, 0x00] ∧ defect.status ≠ [0x64, 0x00] := by
  rcases defect with _ | _ | _ | _ | _ | _ | fault
  case field => cases fault <;> decide
  all_goals decide

theorem Defect.length_status (defect : Defect) : defect.status.length = 2 := by
  rcases defect with _ | _ | _ | _ | _ | _ | fault
  case field => cases fault <;> rfl
  all_goals rfl

namespace Endpoint

open TapAccess.Action

variable {e : Endpoint} {random : RandomSource} {cause : ProtocolError}

/-! ### Requests that fail -/

theorem responseCode_of_settleMove {target : Transaction} {answered : Response}
    (herror : (e.settleMove random target answered).result = .error cause) : cause.responseCode = .genericError := by
  unfold settleMove at herror
  split at herror
  · cases herror
  · cases herror
    rfl

theorem responseCode_of_settleAuth0 {c : Auth0Command} (herror : (e.settleAuth0 random c).result = .error cause) :
    cause.responseCode = .genericError := by
  unfold settleAuth0 at herror
  split at herror
  · cases herror
    rfl
  · split at herror
    · cases herror
      rfl
    · cases herror

theorem responseCode_of_settleAuth1 {c : Auth1Command} (hsigns : e.Signs)
    (herror : (e.settleAuth1 random c).result = .error cause) : cause.responseCode = .genericError := by
  have hsession {session : Session}
      (hopen : e.transaction = .auth0FastDone session ∨ e.transaction = .auth0StandardDone session)
      (herror : (e.settleSession random c session).result = .error cause) : cause.responseCode = .genericError := by
    -- the endpoint has a signature here, and a signature can always be sealed
    obtain ⟨signature, hmade⟩ := hsigns session hopen
    obtain ⟨channel, sealed, hsigned, -⟩ :=
      exists_countersigned ((session.derivation e.versions.encode).channelKeys session.secret) hmade
    unfold settleSession at herror
    split at herror
    · cases herror
      rfl
    · rw [hsigned] at herror
      cases herror
  unfold settleAuth1 at herror
  split at herror
  · next session hopen => exact hsession (.inl hopen) herror
  · next session hopen => exact hsession (.inr hopen) herror
  · cases herror
    rfl

theorem responseCode_of_settle {request : Request} (hsigns : e.Signs)
    (herror : (e.settle random request).result = .error cause) : cause.responseCode = .genericError := by
  cases request with
  | select c => exact responseCode_of_settleMove herror
  | controlFlow c => exact responseCode_of_settleMove herror
  | auth0 c => exact responseCode_of_settleAuth0 herror
  | auth1 c => exact responseCode_of_settleAuth1 hsigns herror

/-! ### Answers -/

/-- The bytes end in this status word. -/
def EndsIn (sent word : Bytes) : Prop := sent.drop (sent.length - 2) = word

theorem endsIn_encode_iff {response : Response} {word : Bytes} :
    EndsIn response.encode word ↔ response.status.encode = word := by
  rw [EndsIn, Response.drop_encode]

theorem endsIn_of_decode {frame : Bytes} {request : Request} (hsigns : e.Signs)
    (hdecode : Request.decode frame = .ok request) :
    EndsIn (e.reply random frame).response.encode [0x90, 0x00] ∨
      EndsIn (e.reply random frame).response.encode [0x64, 0x00] := by
  rw [reply_of_decode hdecode, endsIn_encode_iff, endsIn_encode_iff]
  cases hresult : (e.settle random request).result with
  | ok response =>
    have hsuccess : (e.settle random request).response.status = .known .ok :=
      isSuccess_response_iff.mpr ⟨response, hresult⟩
    left
    rw [hsuccess]
    rfl
  | error cause =>
    right
    rw [Outcome.response, hresult]
    show StatusWord.encode (.known cause.responseCode) = _
    rw [responseCode_of_settle hsigns hresult]
    rfl

/-- A frame that is no request is answered with the status word of its first defect. -/
theorem reply_of_firstDefect {frame : Bytes} {defect : Defect} (hdefect : FirstDefect frame defect) :
    (e.reply random frame).response.encode = defect.status := by
  obtain ⟨cause, hdecode, hstatus⟩ := Request.decode_of_firstDefect hdefect
  rw [reply, hdecode]
  exact hstatus

/-- Every frame is answered. The answer ends in the status word of success or of a request that failed exactly when
the frame is a request. Otherwise the frame has a first defect, and the answer is the status word of that defect and
nothing else. -/
theorem status_words {ε : Type} (frame : Bytes) (h : Hosted Endpoint) (hsigns : h.own.Signs) :
    ∃ sent after, (answer frame : Action ε Endpoint Bytes) h = .ok sent after ∧
      (EndsIn sent [0x90, 0x00] ∨ EndsIn sent [0x64, 0x00] ↔ ∃ request, Request.decode frame = .ok request) ∧
      ((∃ defect, FirstDefect frame defect) ↔ ¬ ∃ request, Request.decode frame = .ok request) ∧
      ∀ defect, FirstDefect frame defect → sent = defect.status := by
  have hanswer : Yields (answer frame : Action ε Endpoint Bytes) h _ _ _ := answer_yields frame h
  obtain ⟨log, hrun⟩ := hanswer.run_ok
  refine ⟨_, _, hrun, ?_, ?_, fun defect => reply_of_firstDefect⟩
  · constructor
    · intro hends
      rcases Request.exists_request_or_defect frame with hrequest | ⟨defect, hdefect⟩
      · exact hrequest
      · rw [reply_of_firstDefect hdefect, EndsIn, EndsIn, defect.length_status] at hends
        rcases hends with hends | hends
        · exact absurd hends defect.status_ne.1
        · exact absurd hends defect.status_ne.2
    · rintro ⟨request, hdecode⟩
      exact endsIn_of_decode hsigns hdecode
  · constructor
    · rintro ⟨defect, hdefect⟩ ⟨request, hdecode⟩
      obtain ⟨cause, herror, -⟩ := Request.decode_of_firstDefect hdefect
      rw [hdecode] at herror
      cases herror
    · exact (Request.exists_request_or_defect frame).resolve_left

/-! ### Two defects in one frame -/

/-- AUTH0 without a transaction code, and with a version of one byte. -/
def flawed : Frame := ⟨0x80, 0x80, 0x00, 0x00, .shortData [0x41, 0x01, 0x01, 0x5C, 0x01, 0x01] (by decide)⟩

theorem firstDefect_flawed : FirstDefect flawed.bytes (.field .missing) := by
  have hins : flawed.ins = Instruction.auth0.byte := rfl
  have hfields : Instruction.auth0.fields? = some _ := rfl
  have hencodable := Tlv.Object.allEncodable_of_length [.firstParameter 0x01, .ofValue 0x5C [0x01]] (by decide)
  have hdata : Tlv.Object.decodeAll flawed.body.data = .ok _ := Tlv.Object.decodeAll_encodeAll hencodable
  exact .field flawed hins rfl hfields _ hdata rfl

/-- What is missing counts, as it is looked for first. A request with a forged signature is refused in another way. -/
theorem status_words_flawed : waiting.own.Signs ∧
    (∃ after, (answer flawed.bytes : Action Empty Endpoint Bytes) waiting = .ok [0x6F, 0x00] after) ∧
    ∃ sent after, (answer forgery : Action Empty Endpoint Bytes) waiting = .ok sent after ∧
      (EndsIn sent [0x90, 0x00] ∨ EndsIn sent [0x64, 0x00]) := by
  obtain ⟨sent, after, hrun, -, -, hdefect⟩ := @status_words Empty flawed.bytes waiting signs_waiting
  obtain ⟨refused, later, hforged, hends, -⟩ := @status_words Empty forgery waiting signs_waiting
  rw [hdefect _ firstDefect_flawed] at hrun
  exact ⟨signs_waiting, ⟨after, hrun⟩, refused, later, hforged, hends.mpr ⟨_, decode_forgery⟩⟩

end Endpoint

end TapAccess
