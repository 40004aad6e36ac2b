import TapAccess.Proofs.Endpoint.Atomicity
import TapAccess.Proofs.Endpoint.Turns

/-!
# The order of commands

Which commands an endpoint accepts hangs on what it has accepted before.

* `auth0_begun`: before AUTH0 is accepted, the endpoint has left its initial state, and that takes SELECT, or a
  CONTROL_FLOW that nothing has gone before (`Moment.Begins`). The second way is not what the refusal of AUTH0 in
  its text asks for: `auth0_without_select` is a handshake that no SELECT has begun.
* `select_recovers`: SELECT is accepted whatever has happened, save in a standard handshake that waits for AUTH1.
  There it is refused, and the endpoint goes on waiting (`select_refused`).
-/

namespace TapAccess.Endpoint

variable {h : Hosted Endpoint} {past : List Moment}

/-! ### Leaving the initial state -/

/-- SELECT is accepted, or CONTROL_FLOW is while the endpoint is still in its initial state. -/
def Moment.Begins (m : Moment) : Prop :=
  (∃ c, m.Accepts (.select c)) ∨ m.before.own.transaction = .initial ∧ ∃ c, m.Accepts (.controlFlow c)

/-- The endpoint has begun, and it was not deselected after that. -/
def HasBegun (past : List Moment) : Prop := Since Moment.Begins (fun m => m.stimulus = .deselect) past

theorem HasBegun.append_of_ne {m : Moment} (hbegun : HasBegun past) (hreached : m.stimulus ≠ .deselect) :
    HasBegun (past ++ [m]) := Since.append hbegun (List.forall_mem_singleton.mpr hreached)

theorem hasBegun_of_begins {m : Moment} (hbegins : m.Begins) : HasBegun (past ++ [m]) :=
  since_append_singleton.mpr (Or.inl hbegins)

theorem hasBegun_react (hpast : h.own.transaction ≠ .initial → HasBegun past) (s : Stimulus)
    (hleft : (react h s).2.own.transaction ≠ .initial) : HasBegun (past ++ [.of h s]) := by
  change (Moment.of h s).after.own.transaction ≠ .initial at hleft
  cases turn_of h s with
  | deselected hstimulus hafter =>
    rw [hafter] at hleft
    exact absurd rfl hleft
  | refused hquiet hafter =>
    rw [hafter] at hleft
    exact (hpast hleft).append_of_ne fun hdeselect => hquiet (Or.inl hdeselect)
  | unsigned session hquiet hafter =>
    rw [hafter] at hleft
    exact (hpast hleft).append_of_ne fun hdeselect => hquiet (Or.inl hdeselect)
  | selected c haccepts hlegal hafter => exact hasBegun_of_begins (Or.inl ⟨c, haccepts⟩)
  | noted c haccepts hlegal hafter =>
    -- outside the initial state CONTROL_FLOW adds nothing: the endpoint has begun before
    by_cases hinitial : h.own.transaction = .initial
    · exact hasBegun_of_begins (Or.inr ⟨hinitial, c, haccepts⟩)
    · exact (hpast hinitial).append_of_ne haccepts.stimulus_ne
  | opened c haccepts hready hversion hoffers hafter =>
    refine (hpast fun hinitial => ?_).append_of_ne haccepts.stimulus_ne
    change h.own.transaction.phase = .selectDone at hready
    rw [hinitial] at hready
    cases hready
  | completed c session channel answered haccepts hopen hsigned hbrings hafter =>
    refine (hpast fun hinitial => ?_).append_of_ne haccepts.stimulus_ne
    change openSession? h.own.transaction = some session at hopen
    rw [hinitial] at hopen
    cases hopen

theorem hasBegun_run (hnew : h.own.transaction = .initial) (stimuli : List Stimulus)
    (hleft : (run h stimuli).own.transaction ≠ .initial) : HasBegun (history h stimuli) := by
  have hstart : h.own.transaction ≠ .initial → HasBegun [] := fun hleft => absurd hnew hleft
  exact run_induction (P := fun past h => h.own.transaction ≠ .initial → HasBegun past)
    (fun _ _ s hpast => hasBegun_react hpast s) stimuli hstart hleft

/-- An AUTH0 is accepted only after the endpoint has begun since it was last deselected. -/
theorem auth0_begun (store : CredentialStore) (versions : Versions) (random : RandomSource) (log : List Event)
    (earlier : List Stimulus) (s : Stimulus) (c : Auth0Command)
    (haccepts : (Moment.of (run ⟨.new store versions, random, log⟩ earlier) s).Accepts (.auth0 c)) :
    HasBegun (history ⟨.new store versions, random, log⟩ earlier) := by
  refine hasBegun_run rfl earlier fun hinitial => ?_
  obtain ⟨_, _, -, -, hok⟩ := accepts_iff.mp haccepts
  have hready := (settleAuth0_eq_of_ok hok).1
  rw [hinitial] at hready
  cases hready

/-! ### A handshake without SELECT -/

/-- A new endpoint that knows nobody. -/
def newcomer : Hosted Endpoint := ⟨.new waiting.own.store .standard, ⟨fun _ => 0x05, 0⟩, []⟩

theorem decode_standardCommand : Request.decode standardCommand.encode = .ok (.auth0 standardCommand) :=
  Auth0Command.decode_encode standardCommand

theorem react_controlFlow {bytes : Bytes} {c : ControlFlowCommand}
    (hdecode : Request.decode bytes = .ok (.controlFlow c)) (hready : h.own.transaction.phase ≠ .auth0StandardDone) :
    (Moment.of h (.frame bytes)).Accepts (.controlFlow c) ∧
      (react h (.frame bytes)).2.own = { h.own with transaction := .selectDone } := by
  obtain ⟨haccepts, -, hafter⟩ :=
    react_of_settle hdecode (settleMove_of_legal _ h.random (legal_selectDone_iff.mpr hready))
  exact ⟨haccepts, hafter⟩

theorem react_auth0 {bytes : Bytes} {c : Auth0Command} (hdecode : Request.decode bytes = .ok (.auth0 c))
    (hready : h.own.transaction.phase = .selectDone) (hversion : h.own.versions.Supports c.version) :
    (Moment.of h (.frame bytes)).Accepts (.auth0 c) ∧ (react h (.frame bytes)).2.own =
      { h.own with transaction := h.own.openedTransaction c (h.own.freshSession h.random c) } := by
  obtain ⟨haccepts, -, hafter⟩ := react_of_settle hdecode (settleAuth0_of_ready h.random hready hversion)
  exact ⟨haccepts, hafter⟩

theorem accepts_standardCommand_of_controlFlow :
    (Moment.of (run newcomer [.frame ControlFlowCommand.success.encode])
      (.frame standardCommand.encode)).Accepts (.auth0 standardCommand) := by
  obtain ⟨-, hafter⟩ := react_controlFlow (h := newcomer) ControlFlowCommand.decode_success (by decide)
  refine (react_auth0 decode_standardCommand ?_ ?_).1
  · rw [run, run, hafter]
    rfl
  · rw [versions_run]
    decide

/-- CONTROL_FLOW, then AUTH0: it is accepted, and there has been no SELECT. -/
theorem auth0_without_select :
    (Moment.of (run newcomer [.frame ControlFlowCommand.success.encode])
      (.frame standardCommand.encode)).Accepts (.auth0 standardCommand) ∧
    ¬ Since (fun m => ∃ c, m.Accepts (.select c)) (fun m => m.stimulus = .deselect)
      (history newcomer [.frame ControlFlowCommand.success.encode]) := by
  refine ⟨accepts_standardCommand_of_controlFlow, ?_⟩
  obtain ⟨hnoted, -⟩ := react_controlFlow (h := newcomer) ControlFlowCommand.decode_success (by decide)
  rw [history, history]
  change ¬ Since _ _ ([] ++ [_])
  rw [since_append_singleton]
  rintro (⟨c, hselect⟩ | ⟨-, hnothing⟩)
  · cases hnoted.unique hselect
  · exact not_since_nil hnothing

theorem auth0_begun_controlFlow :
    (Moment.of (run newcomer [.frame ControlFlowCommand.success.encode])
      (.frame standardCommand.encode)).Accepts (.auth0 standardCommand) ∧
    HasBegun (history newcomer [.frame ControlFlowCommand.success.encode]) :=
  ⟨accepts_standardCommand_of_controlFlow,
    auth0_begun _ _ _ _ _ _ _ accepts_standardCommand_of_controlFlow⟩

/-! ### Standard handshakes -/

/-- AUTH0 is accepted, and a standard handshake is what it asks for. -/
def Moment.OpensStandard (m : Moment) : Prop := ∃ c, m.Accepts (.auth0 c) ∧ c.fast = false

/-- A standard handshake has been opened, and since then nothing has succeeded and the endpoint was not
deselected. -/
def WaitsStandard (past : List Moment) : Prop := Since Moment.OpensStandard Moment.Interrupts past

theorem waitsStandard_of_accepts {m : Moment} {request : Request} (haccepts : m.Accepts request) :
    WaitsStandard (past ++ [m]) ↔ ∃ c, request = .auth0 c ∧ c.fast = false := by
  rw [WaitsStandard, since_append_singleton]
  constructor
  · rintro (⟨c, hauth0, hstandard⟩ | ⟨hquiet, -⟩)
    · exact ⟨c, haccepts.unique hauth0, hstandard⟩
    · exact absurd haccepts.interrupts hquiet
  · rintro ⟨c, rfl, hstandard⟩
    exact Or.inl ⟨c, haccepts, hstandard⟩

theorem waitsStandard_of_quiet {m : Moment} (hquiet : ¬ m.Interrupts) :
    WaitsStandard (past ++ [m]) ↔ WaitsStandard past := by
  rw [WaitsStandard, since_append_singleton]
  constructor
  · rintro (⟨c, hauth0, -⟩ | ⟨-, hpast⟩)
    · exact absurd hauth0.interrupts hquiet
    · exact hpast
  · intro hpast
    exact Or.inr ⟨hquiet, hpast⟩

theorem not_waitsStandard_of_deselect {m : Moment} (hdeselect : m.stimulus = .deselect) :
    ¬ WaitsStandard (past ++ [m]) := by
  rw [WaitsStandard, since_append_singleton]
  rintro (⟨c, hauth0, -⟩ | ⟨hquiet, -⟩)
  · exact hauth0.stimulus_ne hdeselect
  · exact hquiet (Or.inl hdeselect)

theorem phase_openedTransaction {e : Endpoint} {c : Auth0Command} {session : Session} :
    (e.openedTransaction c session).phase = .auth0StandardDone ↔ c.fast = false := by
  rw [openedTransaction]
  cases c.fast <;> simp [Transaction.phase]

theorem waitsStandard_react (hpast : h.own.transaction.phase = .auth0StandardDone ↔ WaitsStandard past)
    (s : Stimulus) :
    (react h s).2.own.transaction.phase = .auth0StandardDone ↔ WaitsStandard (past ++ [.of h s]) := by
  change (Moment.of h s).after.own.transaction.phase = _ ↔ _
  cases turn_of h s with
  | deselected hstimulus hafter =>
    rw [hafter, iff_false_right (not_waitsStandard_of_deselect hstimulus)]
    exact Phase.noConfusion
  | refused hquiet hafter =>
    rw [hafter, waitsStandard_of_quiet hquiet]
    exact hpast
  | unsigned session hquiet hafter =>
    rw [hafter, waitsStandard_of_quiet hquiet]
    exact hpast
  | selected c haccepts hlegal hafter =>
    rw [hafter, waitsStandard_of_accepts haccepts]
    simp [Transaction.phase]
  | noted c haccepts hlegal hafter =>
    rw [hafter, waitsStandard_of_accepts haccepts]
    simp [Transaction.phase]
  | opened c haccepts hready hversion hoffers hafter =>
    rw [hafter, waitsStandard_of_accepts haccepts, phase_openedTransaction]
    simp
  | completed c session channel answered haccepts hopen hsigned hbrings hafter =>
    rw [hafter, waitsStandard_of_accepts haccepts]
    simp [Transaction.phase]

theorem waitsStandard_run (hnew : h.own.transaction = .initial) (stimuli : List Stimulus) :
    (run h stimuli).own.transaction.phase = .auth0StandardDone ↔ WaitsStandard (history h stimuli) := by
  have hstart : h.own.transaction.phase = .auth0StandardDone ↔ WaitsStandard [] := by
    rw [hnew]
    exact iff_of_false Phase.noConfusion not_since_nil
  exact run_induction (P := fun past h => h.own.transaction.phase = .auth0StandardDone ↔ WaitsStandard past)
    (fun _ _ s hpast => waitsStandard_react hpast s) stimuli hstart

/-! ### SELECT at any time -/

theorem react_select {bytes : Bytes} {c : SelectCommand} (hdecode : Request.decode bytes = .ok (.select c))
    (hready : h.own.transaction.phase ≠ .auth0StandardDone) :
    (Moment.of h (.frame bytes)).Accepts (.select c) ∧
      (react h (.frame bytes)).1 =
        some ((SelectResponse.ofVersions h.own.versions).toObject.encode ++ [0x90, 0x00]) ∧
      (react h (.frame bytes)).2.own = { h.own with transaction := .selectDone } := by
  rw [← Response.encode_ok]
  exact react_of_settle hdecode (settleMove_of_legal _ h.random (legal_selectDone_iff.mpr hready))

theorem react_select_of_standard {bytes : Bytes} {c : SelectCommand}
    (hdecode : Request.decode bytes = .ok (.select c)) (hwaits : h.own.transaction.phase = .auth0StandardDone) :
    (react h (.frame bytes)).1 = some [0x64, 0x00] ∧ (react h (.frame bytes)).2.own = h.own := by
  have hillegal : ¬ Phase.Legal h.own.transaction.phase Transaction.selectDone.phase :=
    fun hlegal => legal_selectDone_iff.mp hlegal hwaits
  have hsettle : h.own.settle h.random (.select c) =
      ⟨.error (.illegalTransition h.own.transaction.phase .selectDone), h.own, h.random⟩ := if_neg hillegal
  rw [answer_of_decode hdecode, react_of_decode hdecode, hsettle]
  show some (Response.ofCode .genericError).encode = _ ∧ _
  exact ⟨rfl, rfl⟩

/-- SELECT is answered with the endpoint's versions and success, unless a standard handshake waits for AUTH1. -/
theorem select_recovers (store : CredentialStore) (versions : Versions) (random : RandomSource) (log : List Event)
    (stimuli : List Stimulus) (frame : Bytes) (c : SelectCommand)
    (hdecode : Request.decode frame = .ok (.select c)) :
    (¬ WaitsStandard (history ⟨.new store versions, random, log⟩ stimuli) →
      (react (run ⟨.new store versions, random, log⟩ stimuli) (.frame frame)).1 =
        some ((SelectResponse.ofVersions versions).toObject.encode ++ [0x90, 0x00]) ∧
      (react (run ⟨.new store versions, random, log⟩ stimuli) (.frame frame)).2.own.transaction = .selectDone) ∧
    (WaitsStandard (history ⟨.new store versions, random, log⟩ stimuli) →
      (react (run ⟨.new store versions, random, log⟩ stimuli) (.frame frame)).1 = some [0x64, 0x00] ∧
      (react (run ⟨.new store versions, random, log⟩ stimuli) (.frame frame)).2.own =
        (run ⟨.new store versions, random, log⟩ stimuli).own) := by
  have hphase := waitsStandard_run (h := ⟨.new store versions, random, log⟩) rfl stimuli
  constructor
  · intro hfree
    obtain ⟨-, hanswer, hafter⟩ := react_select hdecode fun hwaits => hfree (hphase.mp hwaits)
    rw [versions_run] at hanswer
    exact ⟨hanswer, by rw [hafter]⟩
  · intro hwaits
    exact react_select_of_standard hdecode (hphase.mpr hwaits)

theorem decode_select : Request.decode SelectCommand.access.encode = .ok (.select .access) :=
  SelectCommand.decode_encode (by decide)

theorem run_select_auth0 {bytes : Bytes} {c : Auth0Command} (hdecode : Request.decode bytes = .ok (.auth0 c))
    (hversion : Versions.standard.Supports c.version) :
    (run newcomer [.frame SelectCommand.access.encode, .frame bytes]).own.transaction.phase = .auth0StandardDone ↔
      c.fast = false := by
  obtain ⟨-, -, hselected⟩ := react_select (h := newcomer) decode_select (by decide)
  obtain ⟨-, hopened⟩ := react_auth0 (h := (react newcomer (.frame SelectCommand.access.encode)).2) hdecode
    (by rw [hselected]; rfl) (by rw [hselected]; exact hversion)
  rw [run, run, run, hopened, phase_openedTransaction]

/-- SELECT, AUTH0 for a standard handshake, and SELECT again: it is refused, and the handshake still waits. -/
theorem select_refused :
    Request.decode SelectCommand.access.encode = .ok (.select .access) ∧
    (react (run newcomer [.frame SelectCommand.access.encode, .frame standardCommand.encode])
      (.frame SelectCommand.access.encode)).1 = some [0x64, 0x00] ∧
    (react (run newcomer [.frame SelectCommand.access.encode, .frame standardCommand.encode])
      (.frame SelectCommand.access.encode)).2.own.transaction.phase = .auth0StandardDone := by
  have hwaits := (run_select_auth0 decode_standardCommand (by decide)).mpr rfl
  obtain ⟨hanswer, hafter⟩ := react_select_of_standard decode_select hwaits
  exact ⟨decode_select, hanswer, by rw [hafter]; exact hwaits⟩

def fastCommand : Auth0Command := { standardCommand with fast := true }

theorem select_recovers_fast :
    Request.decode SelectCommand.access.encode = .ok (.select .access) ∧
    ¬ WaitsStandard (history newcomer [.frame SelectCommand.access.encode, .frame fastCommand.encode]) ∧
    (react (run newcomer [.frame SelectCommand.access.encode, .frame fastCommand.encode])
      (.frame SelectCommand.access.encode)).1 =
        some ((SelectResponse.ofVersions .standard).toObject.encode ++ [0x90, 0x00]) := by
  have hfree : ¬ WaitsStandard (history newcomer
      [.frame SelectCommand.access.encode, .frame fastCommand.encode]) := by
    intro hwaits
    have hdecode : Request.decode fastCommand.encode = .ok (.auth0 fastCommand) :=
      Auth0Command.decode_encode fastCommand
    have hphase := (waitsStandard_run rfl _).mpr hwaits
    have hstandard : fastCommand.fast = false := (run_select_auth0 hdecode (by decide)).mp hphase
    cases hstandard
  exact ⟨decode_select, hfree, ((select_recovers _ _ _ _ _ _ _ decode_select).1 hfree).1⟩

end TapAccess.Endpoint
