import TapAccess.Proofs.Endpoint.Order
import TapAccess.Proofs.KeySchedule

/-!
# What the keys of a handshake are bound to

A session keeps two bytes of the AUTH0 that opened it, its flag, and binds all of its keys to them: the flag ends the
salt of a fast transaction and stands at a fixed place in both infos of a standard one. The second byte is the
transaction code as it was sent, whatever it is. The first one is meant to be the parameter byte, but only its lowest
bit is kept when AUTH0 is read.

`flag_of_auth0` says what this comes to. The flag is made of that bit and the code, so it is what was sent as long as
the parameter byte is 0 or 1. Otherwise a reader that binds its keys to the byte that it sent has other keys than the
endpoint (`flag_of_reserved_parameter`).
-/

namespace TapAccess

/-! ### Where the flag stands -/

theorem FastDerivation.drop_salt (d : FastDerivation) : d.salt.drop (d.salt.length - 2) = d.flag.toList := by
  obtain ⟨front, hsalt⟩ : ∃ front, d.salt = front ++ d.flag.toList := ⟨_, rfl⟩
  have hlength : d.salt.length - 2 = front.length := by
    rw [hsalt, List.length_append, Octets.length_toList, Nat.add_sub_cancel]
  rw [hlength, hsalt, List.drop_left' rfl]

theorem StandardDerivation.flag_info (d : StandardDerivation) (lifetime : KeyLifetime) :
    ((d.info lifetime).drop 81).take 2 = d.flag.toList := by
  obtain ⟨front, back, hinfo, hlength⟩ : ∃ front back, d.info lifetime = front ++ (d.flag.toList ++ back) ∧
      front.length = 81 := by
    refine ⟨d.handshake.readerEphemeral.xBytes.toList ++ d.handshake.endpointEphemeral.xBytes.toList
      ++ d.handshake.transactionIdentifier.toList ++ [contactlessInterface],
      lifetime.label ++ markedVersions d.version.encode.toList ++ markedVersions d.supportedVersions, ?_, ?_⟩
    · simp only [info, List.append_assoc]
    · simp only [List.length_append, Octets.length_toList, List.length_singleton]
  rw [hinfo, List.drop_left' hlength, List.take_left' (Octets.length_toList _)]

/-! ### Reading the two bytes -/

theorem toNat_and_one (b : UInt8) : (b &&& 0x01).toNat = b.toNat % 2 := by
  rw [UInt8.toNat_and]
  exact Nat.and_one_is_mod b.toNat

theorem and_one_cases (b : UInt8) : b &&& 0x01 = 0x00 ∨ b &&& 0x01 = 0x01 := by
  have hzero : (0x00 : UInt8).toNat = 0 := rfl
  have hone : (0x01 : UInt8).toNat = 1 := rfl
  rw [← UInt8.toNat_inj, ← UInt8.toNat_inj, toNat_and_one, hzero, hone]
  omega

theorem and_one_eq_self_iff {b : UInt8} : b &&& 0x01 = b ↔ b ≤ 0x01 := by
  have hone : (0x01 : UInt8).toNat = 1 := rfl
  rw [← UInt8.toNat_inj, toNat_and_one, UInt8.le_iff_toNat_le, hone]
  omega

/-- The parameter byte and the transaction code that a frame carries: the first byte of the first object with the tag
of each. -/
def parameters? (frame : Bytes) : Except ProtocolError (UInt8 × UInt8) := do
  let command ← (Command.decode frame).mapError ProtocolError.ofFraming
  let objects ← Tlv.Object.parse command.data
  let parameter ← (← Tlv.Object.require objects 0x41).firstByte "command parameters"
  let code ← (← Tlv.Object.require objects 0x42).firstByte "transaction code"
  return (parameter, code)

theorem Auth0Command.ofCommand_of_request {command : Command} {c : Auth0Command}
    (hrequest : Request.ofCommand command = .ok (.auth0 c)) : ofCommand command = .ok c := by
  have hmap {α : Type} {read : Except ProtocolError α} {wrap : α → Request}
      (hother : ∀ a, wrap a ≠ .auth0 c) : read.map wrap ≠ .ok (.auth0 c) := by
    cases read with
    | error e => exact fun herror => by cases herror
    | ok a => exact fun hok => hother a (Except.ok.inj hok)
  unfold Request.ofCommand at hrequest
  split at hrequest
  · cases hrequest
  split at hrequest
  · cases hrequest
  split at hrequest
  · exact absurd hrequest (hmap fun _ hselect => by cases hselect)
  · cases hread : ofCommand command with
    | error e =>
      rw [hread] at hrequest
      cases hrequest
    | ok c' =>
      rw [hread] at hrequest
      cases hrequest
      rfl
  · exact absurd hrequest (hmap fun _ hauth1 => by cases hauth1)
  · exact absurd hrequest (hmap fun _ hcontrolFlow => by cases hcontrolFlow)
  · cases hrequest

theorem parameters?_of_decode {frame : Bytes} {c : Auth0Command}
    (hdecode : Request.decode frame = .ok (.auth0 c)) : ∃ parameter code,
      parameters? frame = .ok (parameter, code) ∧ c.flag.toList = [parameter &&& 0x01, code] ∧
      (c.fast = true ↔ parameter &&& 0x01 = 0x01) := by
  obtain ⟨command, hcommand, hrequest⟩ := Except.bind_eq_ok_iff.mp hdecode
  have hread := Auth0Command.ofCommand_of_request hrequest
  simp only [Auth0Command.ofCommand, Auth0Command.ofObjects, Except.bind_eq_ok_iff, Except.pure_eq_ok,
    Except.ok.injEq] at hread
  obtain ⟨objects, hobjects, first, h41, parameter, hparameter, second, h42, code, hcode, hrest⟩ := hread
  obtain ⟨_, -, _, -, _, -, _, -, _, -, _, -, _, -, _, -, _, -, _, -, rfl⟩ := hrest
  refine ⟨parameter, code, ?_, ?_, ?_⟩
  · simp [parameters?, hcommand, hobjects, h41, hparameter, h42, hcode]
  · show [if decide (parameter &&& 0x01 ≠ 0) then 0x01 else 0x00, (TransactionCode.ofByte code).byte] = _
    rw [TransactionCode.byte_ofByte]
    rcases and_one_cases parameter with hclear | hset
    · rw [hclear]
      rfl
    · rw [hset]
      rfl
  · show decide (parameter &&& 0x01 ≠ 0) = true ↔ _
    rcases and_one_cases parameter with hclear | hset
    · rw [hclear]
      decide
    · rw [hset]
      decide

namespace Endpoint

theorem openedTransaction_of_fast {e : Endpoint} {c : Auth0Command} {session : Session} (hfast : c.fast = true) :
    e.openedTransaction c session =
      .auth0FastDone { session with channel := .new (some (e.fastInput c session).keys) } := by
  rw [openedTransaction, if_pos hfast]

theorem flag_openedTransaction (e : Endpoint) (c : Auth0Command) (random : RandomSource) :
    ∃ session, (e.openedTransaction c (e.freshSession random c)).session? = some session ∧
      session.flag = c.flag := by
  unfold openedTransaction
  split
  · exact ⟨_, rfl, rfl⟩
  · exact ⟨_, rfl, rfl⟩

/-- The flag of a session that AUTH0 opens is the lowest bit of the parameter byte and the transaction code, so that
it is what was sent exactly when the parameter byte is 0 or 1. The keys of a fast transaction are bound to the flag
at once, and both kinds of keys of a standard one will be. -/
theorem flag_of_auth0 {h : Hosted Endpoint} {frame : Bytes} {c : Auth0Command}
    (haccepts : (Moment.of h (.frame frame)).Accepts (.auth0 c)) :
    ∃ parameter code session, parameters? frame = .ok (parameter, code) ∧
      (react h (.frame frame)).2.own.transaction.session? = some session ∧
      session.flag.toList = [parameter &&& 0x01, code] ∧
      (session.flag.toList = [parameter, code] ↔ parameter ≤ 0x01) ∧
      (parameter &&& 0x01 = 0x01 → ∃ derivation : FastDerivation,
        session.channel = .new (some derivation.keys) ∧
        (Moment.of h (.frame frame)).Brings
          (Auth0Response.mk session.endpointEphemeral.publicKey (some derivation.cryptogram)).toResponse ∧
        derivation.salt.drop (derivation.salt.length - 2) = session.flag.toList) ∧
      ∀ supportedVersions lifetime,
        (((session.derivation supportedVersions).info lifetime).drop 81).take 2 = session.flag.toList := by
  obtain ⟨_, _, hframe, hdecode, hok⟩ := accepts_iff.mp haccepts
  cases hframe
  obtain ⟨parameter, code, hparameters, hflag, hfast⟩ := parameters?_of_decode hdecode
  obtain ⟨-, -, -, hsettle⟩ := settleAuth0_eq_of_ok hok
  obtain ⟨-, -, hafter⟩ := react_of_settle hdecode hsettle
  obtain ⟨session, hsession, hbound⟩ := flag_openedTransaction h.own c h.random
  rw [← hbound] at hflag
  refine ⟨parameter, code, session, hparameters, by rw [hafter]; exact hsession, hflag, ?_, ?_, ?_⟩
  · rw [hflag, List.cons.injEq, and_one_eq_self_iff]
    exact and_iff_left rfl
  · intro hset
    have hasked := hfast.mpr hset
    rw [openedTransaction_of_fast hasked] at hsession
    cases hsession
    refine ⟨h.own.fastInput c (h.own.freshSession h.random c), rfl, brings_frame_iff.mpr ?_,
      FastDerivation.drop_salt _⟩
    rw [reply_of_decode hdecode]
    show _ = (h.own.settleAuth0 h.random c).response
    rw [hsettle]
    show _ = (h.own.openedResponse c (h.own.freshSession h.random c)).toResponse
    rw [openedResponse, if_pos hasked]
  · intro supportedVersions lifetime
    exact StandardDerivation.flag_info _ lifetime

/-! ### A parameter byte with another bit -/

theorem parameters?_frameWith (c : Auth0Command) (parameter : UInt8) :
    parameters? (c.frameWith parameter).encode = .ok (parameter, c.transactionCode.byte) := by
  have hdata := c.length_data_frameWith_le parameter
  have hcommand : Command.decode (c.frameWith parameter).encode = .ok (c.frameWith parameter) :=
    Command.decode_encode (InstructionCode.canonical_known _) hdata maxShortLe_le
  have hobjects : Tlv.Object.parse (c.frameWith parameter).data =
      .ok (.firstParameter parameter :: c.toObjects.tail) := Tlv.Object.parse_data hdata
  have h41 : Tlv.Object.require (.firstParameter parameter :: c.toObjects.tail) 0x41 =
      .ok (.ofValue 0x41 [parameter]) := rfl
  have h42 : Tlv.Object.require (.firstParameter parameter :: c.toObjects.tail) 0x42 =
      .ok (.ofValue 0x42 [c.transactionCode.byte]) := rfl
  simp [parameters?, hcommand, hobjects, h41, h42]

/-- A new endpoint after SELECT. -/
def selected : Hosted Endpoint := run newcomer [.frame SelectCommand.access.encode]

theorem own_selected : selected.own = { newcomer.own with transaction := .selectDone } :=
  (react_select (h := newcomer) decode_select (by decide)).2.2

theorem accepts_frameWith (parameter : UInt8) :
    (Moment.of selected (.frame (standardCommand.frameWith parameter).encode)).Accepts
      (.auth0 { standardCommand with fast := parameter &&& 0x01 ≠ 0 }) := by
  refine (react_auth0 (standardCommand.decode_frameWith parameter) ?_ ?_).1
  · rw [own_selected]
    rfl
  · rw [own_selected]
    show Versions.standard.Supports 0x0100
    decide

/-- With 3 as its parameter byte AUTH0 asks for a fast transaction. Its keys are bound to 1 in place of 3. -/
theorem flag_of_auth0_fast :
    (Moment.of selected (.frame (standardCommand.frameWith 0x03).encode)).Accepts (.auth0 fastCommand) ∧
    parameters? (standardCommand.frameWith 0x03).encode = .ok (0x03, 0x01) ∧
    ∃ session derivation,
      (react selected (.frame (standardCommand.frameWith 0x03).encode)).2.own.transaction.session? = some session ∧
      session.flag.toList = [0x01, 0x01] ∧ session.channel = .new (some (FastDerivation.keys derivation)) ∧
      derivation.salt.drop (derivation.salt.length - 2) = [0x01, 0x01] := by
  have haccepts : (Moment.of selected (.frame (standardCommand.frameWith 0x03).encode)).Accepts
      (.auth0 fastCommand) := accepts_frameWith 0x03
  have hparameters := parameters?_frameWith standardCommand 0x03
  obtain ⟨parameter, code, session, hread, hsession, hflag, -, hfast, -⟩ := flag_of_auth0 haccepts
  rw [hparameters] at hread
  cases hread
  obtain ⟨derivation, hchannel, -, hsalt⟩ := hfast rfl
  exact ⟨haccepts, hparameters, session, derivation, hsession, hflag, hchannel, hsalt.trans hflag⟩

/-- AUTH0 with 2 as its parameter byte is answered with success, but the session is bound to 0 in place of 2. -/
theorem flag_of_reserved_parameter :
    selected.own.transaction.phase = .selectDone ∧
    parameters? (standardCommand.frameWith 0x02).encode = .ok (0x02, 0x01) ∧
    (Moment.of selected (.frame (standardCommand.frameWith 0x02).encode)).Succeeds ∧
    ∃ session,
      (react selected (.frame (standardCommand.frameWith 0x02).encode)).2.own.transaction.session? = some session ∧
      session.flag.toList = [0x00, 0x01] ∧ session.flag.toList ≠ [0x02, 0x01] := by
  obtain ⟨frame, hframe, hdecode, hsucceeds⟩ := accepts_frameWith 0x02
  cases hframe
  obtain ⟨hphase, hversion⟩ : selected.own.transaction.phase = .selectDone ∧
      selected.own.versions.Supports standardCommand.version := by
    rw [own_selected]
    exact ⟨rfl, by decide⟩
  obtain ⟨session, hsession, hbound⟩ := flag_openedTransaction selected.own standardCommand selected.random
  obtain ⟨-, hafter⟩ := react_auth0 hdecode hphase hversion
  refine ⟨hphase, parameters?_frameWith standardCommand 0x02, hsucceeds, session, ?_, ?_⟩
  · rw [hafter]
    exact hsession
  · rw [hbound]
    decide

end Endpoint

end TapAccess
