import TapAccess.Proofs.Endpoint.Acceptance

/-!
# The history of an endpoint

Frames reach an endpoint in any order, and it may be deselected at any time. `history` writes down what it
does with each of them, as moments with the host before and after. A moment succeeds when a frame is answered
with the status word 9000; that is so exactly when the frame is a request and the request comes to a response
(`succeeds_frame_iff`), and whatever does not succeed leaves the transaction as it was
(`transaction_of_not_succeeds`).

What statements say of the past is that something has happened and something else has not happened after it
(`Since`); `run_induction` carries such a statement along a history.
-/

namespace TapAccess.Endpoint

open TapAccess.Action

inductive Stimulus where
  | frame (bytes : Bytes)
  | deselect
  deriving DecidableEq, Repr

/-- What an endpoint does when something reaches it: the answer, if there is one, and the host afterwards. -/
def react (h : Hosted Endpoint) : Stimulus → Option Bytes × Hosted Endpoint
  | .frame bytes =>
    match (answer bytes : Action Empty Endpoint Bytes) h with
    | .ok sent h' => (some sent, h')
    | .error e _ => e.elim
  | .deselect => (none, ((deselect : Action Empty Endpoint Unit).outcome h).2)

/-- One moment of a history. -/
structure Moment where
  before : Hosted Endpoint
  stimulus : Stimulus
  answer : Option Bytes
  after : Hosted Endpoint

namespace Moment

def of (h : Hosted Endpoint) (s : Stimulus) : Moment := ⟨h, s, (react h s).1, (react h s).2⟩

def Brings (m : Moment) (response : Response) : Prop :=
  ∃ answer, m.answer = some answer ∧ Response.parse answer = .ok response

def Succeeds (m : Moment) : Prop := ∃ response, m.Brings response ∧ response.IsSuccess

/-- The frame is the given request, and it is answered with success. -/
def Accepts (m : Moment) (request : Request) : Prop :=
  ∃ bytes, m.stimulus = .frame bytes ∧ Request.decode bytes = .ok request ∧ m.Succeeds

/-- The endpoint is deselected, or a frame is answered with success. -/
def Interrupts (m : Moment) : Prop := m.stimulus = .deselect ∨ m.Succeeds

end Moment

/-- What the endpoint does with one thing after the other. -/
def history : Hosted Endpoint → List Stimulus → List Moment
  | _, [] => []
  | h, s :: stimuli => .of h s :: history (react h s).2 stimuli

/-- The host after one thing after the other. -/
def run : Hosted Endpoint → List Stimulus → Hosted Endpoint
  | h, [] => h
  | h, s :: stimuli => run (react h s).2 stimuli

theorem history_append (h : Hosted Endpoint) (earlier later : List Stimulus) :
    history h (earlier ++ later) = history h earlier ++ history (run h earlier) later := by
  induction earlier generalizing h with
  | nil => rfl
  | cons s earlier ih => rw [List.cons_append, history, history, run, ih, List.cons_append]

theorem length_history (h : Hosted Endpoint) (stimuli : List Stimulus) :
    (history h stimuli).length = stimuli.length := by
  induction stimuli generalizing h with
  | nil => rfl
  | cons s stimuli ih => rw [history, List.length_cons, List.length_cons, ih]

theorem history_split {h : Hosted Endpoint} {stimuli : List Stimulus} {j : Nat} {m : Moment}
    (hm : (history h stimuli)[j]? = some m) : ∃ earlier s later, stimuli = earlier ++ s :: later ∧
      earlier.length = j ∧ m = .of (run h earlier) s := by
  induction stimuli generalizing h j with
  | nil => simp [history] at hm
  | cons s stimuli ih =>
    cases j with
    | zero =>
      rw [history, List.getElem?_cons_zero, Option.some.injEq] at hm
      exact ⟨[], s, stimuli, rfl, rfl, hm.symm⟩
    | succ j =>
      rw [history, List.getElem?_cons_succ] at hm
      obtain ⟨earlier, s', later, rfl, rfl, hmoment⟩ := ih hm
      exact ⟨s :: earlier, s', later, rfl, rfl, hmoment⟩

theorem exists_of_mem_history {h : Hosted Endpoint} {stimuli : List Stimulus} {m : Moment}
    (hmem : m ∈ history h stimuli) : ∃ h', ∃ s ∈ stimuli, m = .of h' s := by
  obtain ⟨j, hj⟩ := List.mem_iff_getElem?.mp hmem
  obtain ⟨earlier, s, later, rfl, -, rfl⟩ := history_split hj
  exact ⟨_, s, by simp, rfl⟩

/-! ### Accepted requests -/

theorem Moment.Accepts.unique {m : Moment} {request request' : Request} (haccepts : m.Accepts request)
    (haccepts' : m.Accepts request') : request = request' := by
  obtain ⟨bytes, hstimulus, hdecode, -⟩ := haccepts
  obtain ⟨bytes', hstimulus', hdecode', -⟩ := haccepts'
  rw [hstimulus, Stimulus.frame.injEq] at hstimulus'
  subst hstimulus'
  rw [hdecode, Except.ok.injEq] at hdecode'
  exact hdecode'

theorem Moment.Accepts.stimulus_ne {m : Moment} {request : Request} (haccepts : m.Accepts request) :
    m.stimulus ≠ .deselect := by
  obtain ⟨bytes, hstimulus, -⟩ := haccepts
  rw [hstimulus]
  simp

theorem Moment.Accepts.interrupts {m : Moment} {request : Request} (haccepts : m.Accepts request) :
    m.Interrupts := by
  obtain ⟨_, _, _, hsucceeds⟩ := haccepts
  exact Or.inr hsucceeds

/-! ### What has happened since -/

/-- Something of the one kind has happened, and nothing of the other kind after it. -/
def Since {α : Type} (happened interrupted : α → Prop) (past : List α) : Prop :=
  ∃ earlier m later, past = earlier ++ m :: later ∧ happened m ∧ ∀ m' ∈ later, ¬ interrupted m'

theorem Since.append {α : Type} {P Q : α → Prop} {past more : List α} (hsince : Since P Q past)
    (hquiet : ∀ m ∈ more, ¬ Q m) : Since P Q (past ++ more) := by
  obtain ⟨earlier, m, later, rfl, hhappened, hlater⟩ := hsince
  refine ⟨earlier, m, later ++ more, by simp, hhappened, ?_⟩
  intro other hmem
  rcases List.mem_append.mp hmem with hmem | hmem
  · exact hlater other hmem
  · exact hquiet other hmem

theorem since_append_singleton {α : Type} {P Q : α → Prop} {past : List α} {m : α} :
    Since P Q (past ++ [m]) ↔ P m ∨ ¬ Q m ∧ Since P Q past := by
  constructor
  · rintro ⟨earlier, m', later, hsplit, hhappened, hlater⟩
    rcases List.eq_nil_or_concat later with rfl | ⟨later, last, rfl⟩
    · obtain ⟨-, hlast⟩ := List.append_inj' hsplit rfl
      rw [List.singleton_inj.mp hlast]
      exact Or.inl hhappened
    · rw [List.concat_eq_append] at hsplit hlater
      rw [← List.cons_append, ← List.append_assoc] at hsplit
      obtain ⟨hpast, hlast⟩ := List.append_inj' hsplit rfl
      rw [List.singleton_inj.mp hlast]
      refine Or.inr ⟨hlater last (by simp), earlier, m', later, hpast, hhappened, ?_⟩
      exact fun other hmem => hlater other (List.mem_append_left _ hmem)
  · rintro (hhappened | ⟨hquiet, hsince⟩)
    · exact ⟨past, m, [], rfl, hhappened, by simp⟩
    · exact hsince.append (List.forall_mem_singleton.mpr hquiet)

theorem not_since_nil {α : Type} {P Q : α → Prop} : ¬ Since P Q [] := by
  rintro ⟨_, _, _, hsplit, -⟩
  simp at hsplit

/-- What holds of the past and the host at the start and is kept by every moment holds after every history. -/
theorem run_induction {P : List Moment → Hosted Endpoint → Prop}
    (hstep : ∀ past h s, P past h → P (past ++ [.of h s]) (react h s).2) (stimuli : List Stimulus)
    {past : List Moment} {h : Hosted Endpoint} (hstart : P past h) :
    P (past ++ history h stimuli) (run h stimuli) := by
  induction stimuli generalizing past h with
  | nil =>
    rw [history, List.append_nil]
    exact hstart
  | cons s stimuli ih =>
    have hrest := ih (hstep past h s hstart)
    rw [List.append_assoc, List.singleton_append] at hrest
    exact hrest

/-! ### One moment -/

variable {h : Hosted Endpoint}

theorem react_frame (h : Hosted Endpoint) (bytes : Bytes) :
    ∃ log, react h (.frame bytes) = (some (h.own.reply h.random bytes).response.encode,
      ⟨(h.own.reply h.random bytes).endpoint, (h.own.reply h.random bytes).random, log⟩) := by
  have hanswer : Yields (answer bytes : Action Empty Endpoint Bytes) h _ _ _ := answer_yields bytes h
  obtain ⟨log, hrun⟩ := hanswer.run_ok
  exact ⟨log, by rw [react, hrun]⟩

theorem react_deselect (h : Hosted Endpoint) :
    ∃ log, react h .deselect = (none, ⟨{ h.own with transaction := .initial }, h.random, log⟩) := by
  have hdeselect : Yields (deselect : Action Empty Endpoint Unit) h _ _ _ := deselect_yields h
  obtain ⟨log, hlog⟩ := hdeselect
  exact ⟨log, by rw [react, hlog]⟩

theorem brings_frame_iff {bytes : Bytes} {response : Response} :
    (Moment.of h (.frame bytes)).Brings response ↔ response = (h.own.reply h.random bytes).response := by
  obtain ⟨log, hreact⟩ := react_frame h bytes
  have hparse := Response.parse_encode (canonical_reply h.own h.random bytes)
  have hanswer : (Moment.of h (.frame bytes)).answer = some (h.own.reply h.random bytes).response.encode := by
    rw [Moment.of, hreact]
  unfold Moment.Brings
  rw [hanswer]
  constructor
  · rintro ⟨answer, hsome, hread⟩
    rw [Option.some.injEq] at hsome
    subst hsome
    rw [hparse, Except.ok.injEq] at hread
    exact hread.symm
  · rintro rfl
    exact ⟨_, rfl, hparse⟩

theorem succeeds_frame_iff {bytes : Bytes} : (Moment.of h (.frame bytes)).Succeeds ↔
    ∃ request response, Request.decode bytes = .ok request ∧
      (h.own.settle h.random request).result = .ok response := by
  unfold Moment.Succeeds
  simp only [brings_frame_iff, exists_eq_left]
  unfold reply
  cases Request.decode bytes with
  | error cause =>
    constructor
    · intro hsuccess
      exact absurd (StatusWord.known.inj hsuccess) (responseCode_ne_ok cause)
    · rintro ⟨request, response, hdecode, -⟩
      cases hdecode
  | ok request =>
    dsimp only
    rw [isSuccess_response_iff]
    constructor
    · rintro ⟨response, hok⟩
      exact ⟨request, response, rfl, hok⟩
    · rintro ⟨request', response, hdecode, hok⟩
      cases hdecode
      exact ⟨response, hok⟩

theorem accepts_iff {s : Stimulus} {request : Request} : (Moment.of h s).Accepts request ↔
    ∃ bytes response, s = .frame bytes ∧ Request.decode bytes = .ok request ∧
      (h.own.settle h.random request).result = .ok response := by
  constructor
  · rintro ⟨bytes, hstimulus, hdecode, hsucceeds⟩
    change s = .frame bytes at hstimulus
    subst hstimulus
    obtain ⟨request', response, hdecode', hok⟩ := succeeds_frame_iff.mp hsucceeds
    rw [hdecode, Except.ok.injEq] at hdecode'
    subst hdecode'
    exact ⟨bytes, response, rfl, hdecode, hok⟩
  · rintro ⟨bytes, response, rfl, hdecode, hok⟩
    exact ⟨bytes, rfl, hdecode, succeeds_frame_iff.mpr ⟨request, response, hdecode, hok⟩⟩

theorem answer_of_decode {bytes : Bytes} {request : Request} (hdecode : Request.decode bytes = .ok request) :
    (react h (.frame bytes)).1 = some (h.own.settle h.random request).response.encode := by
  obtain ⟨log, hreact⟩ := react_frame h bytes
  rw [hreact]
  dsimp only
  rw [reply_of_decode hdecode]

theorem react_of_decode {bytes : Bytes} {request : Request} (hdecode : Request.decode bytes = .ok request) :
    (react h (.frame bytes)).2.own = (h.own.settle h.random request).endpoint := by
  obtain ⟨log, hreact⟩ := react_frame h bytes
  rw [hreact]
  dsimp only
  rw [reply_of_decode hdecode]

theorem react_of_settle {bytes : Bytes} {request : Request} {response : Response} {after : Endpoint}
    {random : RandomSource} (hdecode : Request.decode bytes = .ok request)
    (hsettle : h.own.settle h.random request = ⟨.ok response, after, random⟩) :
    (Moment.of h (.frame bytes)).Accepts request ∧ (react h (.frame bytes)).1 = some response.encode ∧
      (react h (.frame bytes)).2.own = after := by
  rw [accepts_iff, answer_of_decode hdecode, react_of_decode hdecode, hsettle]
  exact ⟨⟨bytes, response, rfl, hdecode, rfl⟩, rfl, rfl⟩

theorem transaction_of_not_succeeds {bytes : Bytes} (hfails : ¬ (Moment.of h (.frame bytes)).Succeeds) :
    (react h (.frame bytes)).2.own.transaction = h.own.transaction := by
  rw [succeeds_frame_iff] at hfails
  cases hdecode : Request.decode bytes with
  | error cause =>
    obtain ⟨log, hreact⟩ := react_frame h bytes
    rw [hreact]
    dsimp only
    rw [reply, hdecode]
  | ok request =>
    rw [react_of_decode hdecode]
    cases hresult : (h.own.settle h.random request).result with
    | error cause => exact transaction_settle_of_error hresult
    | ok response => exact absurd ⟨request, response, hdecode, hresult⟩ hfails

end TapAccess.Endpoint
