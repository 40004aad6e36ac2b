import TapAccess.Proofs.Meeting.Completeness

/-!
# Any number of visits

Readers with one name, one key pair and one list of devices visit an endpoint again and again, each time with a
purpose, a preference and versions of its own, and the endpoint may be deselected after a visit. `Acquainted` is
the invariant: the list has one device for each AUTH1 sent, all of them with the credential's public key, and the
last one has the key that the endpoint keeps for the reader. One visit preserves it and is authorized, on the
standard path for the first time or when the reader does not ask for a fast transaction and on the fast path
otherwise (`Acquainted.visit`); a sequence of visits follows by induction (`Acquainted.visits`, `visits_agree`).
-/

namespace TapAccess.Meeting

open TapAccess.Action Reader

/-! ### Visits -/

/-- One visit of a reader: its purpose, whether it asks for a fast transaction, the versions that it supports, and
whether the endpoint is deselected afterwards. -/
structure Visit where
  code : TransactionCode
  fast : Bool
  versions : Versions
  deselects : Bool

/-- The reader arrives with its own preferences, and nothing has been exchanged yet. -/
def Visit.arrive (v : Visit) (h : Hosted Pair) : Hosted Pair :=
  ⟨⟨⟨{ h.own.reader.configuration with sendFastTransaction := v.fast, versions := v.versions },
    h.own.reader.knownDevices⟩, (h.own.link.1, [])⟩, h.random, h.log⟩

def leave (h : Hosted Pair) : Hosted Pair :=
  (((Endpoint.deselect : Action Empty Endpoint Unit).within (·.link.1) fun e (pair : Pair) =>
    { pair with link := (e, pair.link.2) }).outcome h).2

/-- What came of a visit: the verdict, the commands that were sent, and the host afterwards. -/
structure Report where
  verdict : Except TransactError Verdict
  commands : List Bytes
  after : Hosted Pair

def Visit.report (v : Visit) (h : Hosted Pair) : Report :=
  let run := (transact undisturbed v.code).outcome (v.arrive h)
  ⟨run.1, sent run.2, if v.deselects then leave run.2 else run.2⟩

/-- The host after one visit after the other. -/
def afterVisits : Hosted Pair → List Visit → Hosted Pair
  | h, [] => h
  | h, v :: visits => afterVisits (v.report h).after visits

/-- The commands that are sent in one visit after the other. -/
def commandsOf : Hosted Pair → List Visit → List Bytes
  | _, [] => []
  | h, v :: visits => (v.report h).commands ++ commandsOf (v.report h).after visits

def isAuth1 (frame : Bytes) : Bool :=
  match Request.decode frame with
  | .ok (.auth1 _) => true
  | _ => false

def isControlFlow (frame : Bytes) : Bool :=
  match Request.decode frame with
  | .ok (.controlFlow _) => true
  | _ => false

theorem leave_eq (h : Hosted Pair) : ∃ log, leave h =
    ⟨⟨h.own.reader, ({ h.own.link.1 with transaction := .initial }, h.own.link.2)⟩, h.random, log⟩ := by
  have hleft : Yields ((Endpoint.deselect : Action Empty Endpoint Unit).within (·.link.1) fun e (pair : Pair) =>
      { pair with link := (e, pair.link.2) }) h (.ok ())
      ⟨h.own.reader, ({ h.own.link.1 with transaction := .initial }, h.own.link.2)⟩ h.random :=
    yields_within fun log => Endpoint.deselect_yields ⟨h.own.link.1, h.random, log⟩
  obtain ⟨log, hlog⟩ := hleft
  exact ⟨log, congrArg Prod.snd hlog⟩

/-! ### Frames -/

theorem isAuth1_select : isAuth1 SelectCommand.access.encode = false := by
  rw [isAuth1, SelectCommand.decode_encode (by decide)]

theorem isAuth1_auth0 (c : Auth0Command) : isAuth1 c.encode = false := by
  rw [isAuth1, Auth0Command.decode_encode]

theorem isAuth1_auth1 (signature : Signature) : isAuth1 (Auth1Command.ofSignature signature).encode = true := by
  rw [isAuth1, Auth1Command.decode_ofSignature]

theorem isAuth1_controlFlow : isAuth1 ControlFlowCommand.success.encode = false := by
  rw [isAuth1, ControlFlowCommand.decode_success]

theorem isControlFlow_controlFlow : isControlFlow ControlFlowCommand.success.encode = true := by
  rw [isControlFlow, ControlFlowCommand.decode_success]

/-! ### The invariant -/

/-- What the reader and the endpoint remember after `count` times AUTH1: a device for each of them, all with the
credential's key, the last one with the key that the endpoint keeps for the reader. -/
structure Remembers (identifier : ReaderIdentifier) (credential : Credential) (count : Nat) (h : Hosted Pair) :
    Prop where
  size : h.own.reader.knownDevices.size = count
  keys : ∀ device ∈ h.own.reader.knownDevices.devices, device.publicKey = credential.publicKey
  last : h.own.reader.knownDevices.devices.getLast?.map (·.persistentKey)
    = h.own.link.1.store.findPersistentKey identifier

/-- The reader has the given name and key pair, the endpoint trusts it and has the one credential for it, it is
ready for another handshake, and both remember what they should. -/
structure Acquainted (identifier : ReaderIdentifier) (keyPair : KeyPair) (credential : Credential)
    (versions : Versions) (count : Nat) (h : Hosted Pair) : Prop
    extends Remembers identifier credential count h where
  identifier_eq : h.own.reader.configuration.identifier = identifier
  keyPair_eq : h.own.reader.configuration.keyPair = keyPair
  enrolled : h.own.link.1.store.findCredentials identifier.group = [credential]
  trusted : ∃ group, h.own.link.1.store.findGroup identifier.group = some group ∧
    group.publicKey = keyPair.publicKey
  versions_eq : h.own.link.1.versions = versions
  ready : h.own.link.1.transaction.phase ≠ .auth0StandardDone

variable {identifier : ReaderIdentifier} {keyPair : KeyPair} {credential : Credential} {versions : Versions}
  {count : Nat} {h : Hosted Pair} {m : Encounter} {known : KnownDevices} {v : Visit}

/-! ### Devices that match -/

theorem fastDerivation_eq {device : KnownDevice} (htrusts : Trusts m.endpoint m.configuration)
    (hkey : device.publicKey = m.session.credential.publicKey)
    (hshared : m.endpoint.store.findPersistentKey m.configuration.identifier = some device.persistentKey) :
    m.opening.fastDerivation m.configuration device = m.endpoint.fastInput m.command.named m.session := by
  have hpersistent : m.endpoint.store.sharedKey m.configuration.identifier = device.persistentKey := by
    rw [CredentialStore.sharedKey, hshared, Option.getD_some]
  unfold Endpoint.fastInput
  rw [m.command.flag_named, ← hkey]
  show _ = FastDerivation.mk _ _ (m.endpoint.store.groupKey m.configuration.identifier.group) _
    (m.endpoint.store.sharedKey m.configuration.identifier) _ _ _ _ _
  rw [htrusts.groupKey_eq, hpersistent]
  rfl

theorem exists_known? (htrusts : Trusts m.endpoint m.configuration)
    (hfast : m.configuration.sendFastTransaction = true)
    (hkeys : ∀ device ∈ known.devices, device.publicKey = m.session.credential.publicKey)
    (hlast : known.devices.getLast?.map (·.persistentKey)
      = m.endpoint.store.findPersistentKey m.configuration.identifier) (hsome : known.size ≠ 0) :
    ∃ device, m.opening.known? ⟨m.configuration, known⟩ = some device ∧
      device.publicKey = m.session.credential.publicKey := by
  cases hknown : m.opening.known? ⟨m.configuration, known⟩ with
  | some device =>
    obtain ⟨cryptogram, earlier, later, -, hlist, -, -⟩ := known?_eq_some_iff.mp hknown
    change known.devices = _ at hlist
    refine ⟨device, rfl, hkeys device ?_⟩
    rw [hlist]
    exact List.mem_append_right _ (List.mem_cons_self ..)
  | none =>
    -- the last device matches, if none before it does
    have hnonempty : known.devices ≠ [] := fun hnil => hsome (congrArg List.length hnil)
    have hmem := List.getLast_mem hnonempty
    rw [List.getLast?_eq_some_getLast hnonempty, Option.map_some] at hlast
    have hsent : m.opening.response.cryptogram = some (m.endpoint.fastInput m.command.named m.session).cryptogram :=
      if_pos hfast
    have hderived := fastDerivation_eq htrusts (hkeys _ hmem) hlast.symm
    exact absurd (congrArg FastDerivation.cryptogram hderived) (known?_eq_none_iff.mp hknown _ hsent _ hmem)

/-! ### What an acquainted pair brings to a visit -/

section

variable (hm : m = .of v.code (v.arrive h))

include hm

theorem configuration_arrive : m.configuration =
    { h.own.reader.configuration with sendFastTransaction := v.fast, versions := v.versions } := by
  rw [hm]
  rfl

theorem endpoint_arrive : m.endpoint = h.own.link.1 := by
  rw [hm]
  rfl

theorem reader_arrive : (v.arrive h).own.reader = ⟨m.configuration, h.own.reader.knownDevices⟩ := by
  rw [hm]
  rfl

namespace Acquainted

variable (ha : Acquainted identifier keyPair credential versions count h)

include ha

theorem identifier_arrive : m.configuration.identifier = identifier := by
  rw [configuration_arrive hm]
  exact ha.identifier_eq

theorem keyPair_arrive : m.configuration.keyPair = keyPair := by
  rw [configuration_arrive hm]
  exact ha.keyPair_eq

theorem compatible (hfew : versions.supported.length < 2 ^ 30)
    (hcommon : ∃ version, v.versions.Supports version ∧ versions.Supports version) :
    Compatible m.configuration m.endpoint := by
  rw [configuration_arrive hm, endpoint_arrive hm]
  rw [← ha.versions_eq] at hfew hcommon
  exact ⟨hfew, hcommon⟩

theorem trusts : Trusts m.endpoint m.configuration := by
  rw [Trusts, ha.identifier_arrive hm, ha.keyPair_arrive hm, endpoint_arrive hm]
  exact ha.trusted

theorem ready_arrive : m.endpoint.transaction.phase ≠ .auth0StandardDone := by
  rw [endpoint_arrive hm]
  exact ha.ready

theorem credential_session : m.session.credential = credential := by
  have hsession : m.session.credential
      = (m.endpoint.choice m.random.keyPair.2 m.configuration.identifier.group).1 := rfl
  rw [hsession, ha.identifier_arrive hm, endpoint_arrive hm, Endpoint.choice, ha.enrolled]
  rfl

theorem known?_eq_none (hstandard : v.fast = false ∨ count = 0) :
    m.opening.known? ⟨m.configuration, h.own.reader.knownDevices⟩ = none := by
  rcases hstandard with hoff | hzero
  · refine known?_eq_none_of_fast ?_
    rw [configuration_arrive hm]
    exact hoff
  · exact known?_eq_none_of_size (ha.size.trans hzero)

theorem known?_eq_some (hfast : ¬ (v.fast = false ∨ count = 0)) :
    ∃ device, m.opening.known? ⟨m.configuration, h.own.reader.knownDevices⟩ = some device ∧
      device.publicKey = credential.publicKey := by
  obtain ⟨hon, hsome⟩ := not_or.mp hfast
  rw [← ha.credential_session hm]
  refine exists_known? (ha.trusts hm) ?_ ?_ ?_ (fun hzero => hsome (ha.size.symm.trans hzero))
  · rw [configuration_arrive hm]
    exact (Bool.not_eq_false _).mp hon
  · rw [ha.credential_session hm]
    exact ha.keys
  · rw [endpoint_arrive hm, ha.identifier_arrive hm]
    exact ha.last

/-! ### One visit -/

/-- AUTH1 adds a device, and both sides keep the same key. -/
theorem standard {verdict : Except TransactError Verdict} {h' : Hosted Pair}
    (hends : EndsStandard m (v.arrive h) verdict h') :
    Acquainted identifier keyPair credential versions (count + 1) h' := by
  obtain ⟨session, signature, -, -, hsame, htransaction, hversions, hstore, hshared, hreader⟩ := hends
  rw [hsame, ha.credential_session hm] at hreader
  rw [ha.identifier_arrive hm, endpoint_arrive hm] at hstore
  rw [ha.identifier_arrive hm] at hshared
  have hdevices : h'.own.reader.knownDevices.devices
      = h.own.reader.knownDevices.devices ++ [⟨credential.publicKey, m.sharedKey⟩] := by rw [hreader]; rfl
  refine ⟨⟨?_, ?_, ?_⟩, ?_, ?_, ?_, ?_, ?_, ?_⟩
  · rw [KnownDevices.size, hdevices, List.length_append, ← ha.size]
    rfl
  · rw [hdevices]
    intro device hdevice
    rcases List.mem_append.mp hdevice with hold | hnew
    · exact ha.keys device hold
    · rw [List.mem_singleton.mp hnew]
  · rw [hdevices, List.getLast?_concat, hshared]
    rfl
  · rw [hreader]
    exact ha.identifier_arrive hm
  · rw [hreader]
    exact ha.keyPair_arrive hm
  · rw [hstore]
    exact ha.enrolled
  · rw [hstore]
    exact ha.trusted
  · rw [hversions, endpoint_arrive hm, ha.versions_eq]
  · rw [htransaction]
    exact (by decide : Phase.auth1Done ≠ .auth0StandardDone)

/-- A fast transaction leaves everything that is remembered as it is. -/
theorem fast {device : KnownDevice} {verdict : Except TransactError Verdict} {h' : Hosted Pair}
    (hends : EndsFast m device (v.arrive h) verdict h') :
    Acquainted identifier keyPair credential versions count h' := by
  obtain ⟨-, -, hlink, hreader⟩ := hends
  rw [endpoint_arrive hm] at hlink
  refine ⟨⟨?_, ?_, ?_⟩, ?_, ?_, ?_, ?_, ?_, ?_⟩
  · rw [hreader]
    exact ha.size
  · rw [hreader]
    exact ha.keys
  · rw [hreader, hlink]
    exact ha.last
  · rw [hreader]
    exact ha.identifier_eq
  · rw [hreader]
    exact ha.keyPair_eq
  · rw [hlink]
    exact ha.enrolled
  · rw [hlink]
    exact ha.trusted
  · rw [hlink]
    exact ha.versions_eq
  · rw [hlink]
    exact (by decide : Phase.selectDone ≠ .auth0StandardDone)

end Acquainted

end

theorem Acquainted.deselected (ha : Acquainted identifier keyPair credential versions count h) :
    Acquainted identifier keyPair credential versions count (leave h) := by
  obtain ⟨log, hleft⟩ := leave_eq h
  rw [hleft]
  exact ⟨⟨ha.size, ha.keys, ha.last⟩, ha.identifier_eq, ha.keyPair_eq, ha.enrolled, ha.trusted, ha.versions_eq,
    (by decide : Phase.initial ≠ .auth0StandardDone)⟩

/-- Should it come to AUTH1 in the visit, both sides come to a signature. -/
def Visit.Signs (v : Visit) (h : Hosted Pair) : Prop :=
  (Encounter.of v.code (v.arrive h)).opening.known? (v.arrive h).own.reader = none →
    (Encounter.of v.code (v.arrive h)).Signs

/-- What a visit comes to: it is authorized, and it sends AUTH1 once or else CONTROL_FLOW in its place. -/
structure Report.Fits (r : Report) (credential : Credential) (standard : Prop) : Prop where
  verdict : ∃ name, r.verdict = .ok (.authorized name credential.publicKey)
  auth1 : standard → r.commands.countP isAuth1 = 1
  controlFlow : ¬ standard → r.commands.countP isAuth1 = 0 ∧ ∃ command ∈ r.commands, isControlFlow command = true

namespace Acquainted

theorem report (ha : Acquainted identifier keyPair credential versions count
      ((transact undisturbed v.code).outcome (v.arrive h)).2) :
    Acquainted identifier keyPair credential versions count (v.report h).after := by
  unfold Visit.report
  dsimp only
  split
  · exact ha.deselected
  · exact ha

/-- One visit fits, and the pair is acquainted after it. -/
theorem visit (ha : Acquainted identifier keyPair credential versions count h)
    (hfew : versions.supported.length < 2 ^ 30)
    (hcommon : ∃ version, v.versions.Supports version ∧ versions.Supports version) (hsigns : v.Signs h) :
    (v.report h).Fits credential (v.fast = false ∨ count = 0) ∧
      Acquainted identifier keyPair credential versions (count + (v.report h).commands.countP isAuth1)
        (v.report h).after := by
  obtain ⟨m, hm⟩ : ∃ m, m = Encounter.of v.code (v.arrive h) := ⟨_, rfl⟩
  have hcompatible := ha.compatible hm hfew hcommon
  have hready := ha.ready_arrive hm
  by_cases hstandard : v.fast = false ∨ count = 0
  · have hunmatched := ha.known?_eq_none hm hstandard
    rw [Visit.Signs, ← hm, reader_arrive hm] at hsigns
    have hends := ends_standard hm hcompatible (ha.trusts hm) hready hunmatched (hsigns hunmatched)
    have hafter := (ha.standard hm hends).report
    obtain ⟨session, signature, hverdict, hsent, hsame, -⟩ := hends
    have hcount : (v.report h).commands.countP isAuth1 = 1 := by
      show (sent _).countP isAuth1 = 1
      rw [hsent]
      show List.countP isAuth1 [_, _, _] = 1
      simp [isAuth1_select, isAuth1_auth0, isAuth1_auth1]
    rw [hsame, ha.credential_session hm] at hverdict
    rw [hcount]
    exact ⟨⟨⟨_, hverdict⟩, fun _ => hcount, fun hnot => absurd hstandard hnot⟩, hafter⟩
  · obtain ⟨device, hknown, hkey⟩ := ha.known?_eq_some hm hstandard
    have hends := ends_fast hm hcompatible hready hknown
    have hafter := (ha.fast hm hends).report
    obtain ⟨hverdict, hsent, -⟩ := hends
    have hcommands : (v.report h).commands = [SelectCommand.access.encode, m.command.encode,
      ControlFlowCommand.success.encode] := hsent
    have hcount : (v.report h).commands.countP isAuth1 = 0 := by
      rw [hcommands]
      simp [isAuth1_select, isAuth1_auth0, isAuth1_controlFlow]
    have hcontrolFlow : ∃ command ∈ (v.report h).commands, isControlFlow command = true := by
      rw [hcommands]
      exact ⟨ControlFlowCommand.success.encode, by simp, isControlFlow_controlFlow⟩
    rw [hkey] at hverdict
    rw [hcount]
    exact ⟨⟨⟨_, hverdict⟩, fun hyes => absurd hyes hstandard, fun _ => ⟨hcount, hcontrolFlow⟩⟩, hafter⟩

/-! ### Sequences of visits -/

theorem visits {visits : List Visit} (ha : Acquainted identifier keyPair credential versions count h)
    (hfew : versions.supported.length < 2 ^ 30)
    (hcommon : ∀ v ∈ visits, ∃ version, v.versions.Supports version ∧ versions.Supports version)
    (hsigns : ∀ earlier v later, visits = earlier ++ v :: later → v.Signs (afterVisits h earlier)) :
    Acquainted identifier keyPair credential versions (count + (commandsOf h visits).countP isAuth1)
      (afterVisits h visits) := by
  induction visits generalizing count h with
  | nil => exact ha
  | cons v visits ih =>
    rw [List.forall_mem_cons] at hcommon
    obtain ⟨-, hafter⟩ := ha.visit hfew hcommon.1 (hsigns [] v visits rfl)
    rw [commandsOf, List.countP_append, ← Nat.add_assoc]
    refine ih hafter hcommon.2 fun earlier v' later hsplit => ?_
    exact hsigns (v :: earlier) v' later (by rw [hsplit, List.cons_append])

end Acquainted

theorem acquainted_start {configuration : Configuration} {store : CredentialStore} {group : ReaderGroup}
    {random : RandomSource} {log : List Event}
    (henrolled : store.findCredentials configuration.identifier.group = [credential])
    (hgroup : store.findGroup configuration.identifier.group = some group)
    (hkey : group.publicKey = configuration.keyPair.publicKey)
    (hnew : store.findPersistentKey configuration.identifier = none) :
    Acquainted configuration.identifier configuration.keyPair credential versions 0
      (start configuration store versions random log) :=
  ⟨⟨rfl, by simp [start, KnownDevices.empty], hnew.symm⟩, rfl, rfl, henrolled, ⟨group, hgroup, hkey⟩, rfl,
    (by decide : Phase.initial ≠ .auth0StandardDone)⟩

/-- Through any sequence of visits both sides remember the same: after each of them the list has a device for every
AUTH1 sent so far, with the credential's key, and the last one has the key that the endpoint keeps for the reader.
Each visit is authorized with the credential's key, and sends AUTH1 when the reader does not ask for a fast
transaction or no AUTH1 has been sent before, and CONTROL_FLOW and no AUTH1 otherwise. -/
theorem visits_agree {configuration : Configuration} {store : CredentialStore} {group : ReaderGroup}
    {random : RandomSource} {log : List Event} {visits : List Visit}
    (hh : h = start configuration store versions random log)
    (henrolled : store.findCredentials configuration.identifier.group = [credential])
    (hgroup : store.findGroup configuration.identifier.group = some group)
    (hkey : group.publicKey = configuration.keyPair.publicKey)
    (hnew : store.findPersistentKey configuration.identifier = none)
    (hfew : versions.supported.length < 2 ^ 30)
    (hcommon : ∀ v ∈ visits, ∃ version, v.versions.Supports version ∧ versions.Supports version)
    (hsigns : ∀ earlier v later, visits = earlier ++ v :: later → v.Signs (afterVisits h earlier)) :
    (∀ earlier later, visits = earlier ++ later → Remembers configuration.identifier credential
      ((commandsOf h earlier).countP isAuth1) (afterVisits h earlier)) ∧
    (∀ earlier v later, visits = earlier ++ v :: later → (v.report (afterVisits h earlier)).Fits credential
      (v.fast = false ∨ ∀ command ∈ commandsOf h earlier, isAuth1 command = false)) := by
  have hstart : Acquainted configuration.identifier configuration.keyPair credential versions 0 h := by
    rw [hh]
    exact acquainted_start henrolled hgroup hkey hnew
  have hearlier (earlier later : List Visit) (hsplit : visits = earlier ++ later) :
      Acquainted configuration.identifier configuration.keyPair credential versions
        ((commandsOf h earlier).countP isAuth1) (afterVisits h earlier) := by
    have hrun := hstart.visits hfew
      (fun v (hv : v ∈ earlier) => hcommon v (hsplit ▸ List.mem_append_left _ hv))
      (fun before v after hbefore => hsigns before v (after ++ later)
        (by rw [hsplit, hbefore, List.append_assoc, List.cons_append]))
    rw [Nat.zero_add] at hrun
    exact hrun
  refine ⟨fun earlier later hsplit => (hearlier earlier later hsplit).toRemembers, ?_⟩
  intro earlier v later hsplit
  have hmem : v ∈ visits := by simp [hsplit]
  have hnone : (commandsOf h earlier).countP isAuth1 = 0 ↔
      ∀ command ∈ commandsOf h earlier, isAuth1 command = false := by simp [List.countP_eq_zero]
  rw [← hnone]
  exact ((hearlier earlier _ hsplit).visit hfew (hcommon v hmem) (hsigns earlier v later hsplit)).1

def firstVisit : Visit := ⟨.lock, true, .standard, true⟩

def secondVisit : Visit := ⟨.unlock, true, .standard, false⟩

theorem firstVisit_signs : firstVisit.Signs firstHost := fun _ => firstHost_signs

theorem secondVisit_signs : secondVisit.Signs (afterVisits firstHost [firstVisit]) := by
  -- AUTH1 has been sent in the first visit, so that the second one comes to no signature
  have hstart : Acquainted firstReader.identifier firstReader.keyPair firstCredential .standard 0 firstHost :=
    acquainted_start (by decide +kernel) firstStore_findGroup (by dsimp only) (by decide +kernel)
  obtain ⟨hfits, hafter⟩ := hstart.visit (by decide) ⟨0x0100, by decide, by decide⟩ firstVisit_signs
  rw [hfits.auth1 (Or.inr rfl)] at hafter
  intro hnone
  obtain ⟨device, hknown, -⟩ := hafter.known?_eq_some (v := secondVisit) rfl (by decide)
  rw [reader_arrive rfl, afterVisits, afterVisits, hknown] at hnone
  cases hnone

theorem visits_agree_twice :
    firstStore.findCredentials firstReader.identifier.group = [firstCredential] ∧
    firstStore.findPersistentKey firstReader.identifier = none ∧
    Versions.standard.supported.length < 2 ^ 30 ∧
    firstVisit.Signs firstHost ∧ secondVisit.Signs (afterVisits firstHost [firstVisit]) ∧
    Remembers firstReader.identifier firstCredential
      ((commandsOf firstHost [firstVisit, secondVisit]).countP isAuth1)
      (afterVisits firstHost [firstVisit, secondVisit]) := by
  have henrolled : firstStore.findCredentials firstReader.identifier.group = [firstCredential] := by decide +kernel
  have hnew : firstStore.findPersistentKey firstReader.identifier = none := by decide +kernel
  have hcommon : ∀ v ∈ [firstVisit, secondVisit], ∃ version, v.versions.Supports version ∧
      Versions.standard.Supports version := by
    intro v hv
    refine ⟨0x0100, ?_, by decide⟩
    simp only [List.mem_cons, List.not_mem_nil, or_false] at hv
    rcases hv with rfl | rfl
    · decide
    · decide
  have hsigns : ∀ earlier v later, [firstVisit, secondVisit] = earlier ++ v :: later →
      v.Signs (afterVisits firstHost earlier)
    | [], _, _, hsplit => by
      cases hsplit
      exact firstVisit_signs
    | [_], _, _, hsplit => by
      cases hsplit
      exact secondVisit_signs
    | _ :: _ :: _, _, _, hsplit => by simp at hsplit
  have hagree := visits_agree rfl henrolled firstStore_findGroup (by dsimp only) hnew (by decide) hcommon hsigns
  exact ⟨henrolled, hnew, by decide, firstVisit_signs, secondVisit_signs,
    hagree.1 [firstVisit, secondVisit] [] (List.append_nil _).symm⟩

end TapAccess.Meeting
