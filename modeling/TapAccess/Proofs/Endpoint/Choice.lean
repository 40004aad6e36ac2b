import TapAccess.Proofs.Choice
import TapAccess.Proofs.Endpoint.Order

/-!
# Which credential answers

An AUTH0 that is accepted opens a session with a credential of the reader's group: the dummy when none is enrolled,
and the one that there is when there is only one, without a draw. Among several of them the words of the source decide,
one after the other until one is not refused, and they favour none (`auth0_chooses`).
-/

namespace TapAccess.Endpoint

open RandomSource

theorem random_of_decode {h : Hosted Endpoint} {frame : Bytes} {request : Request}
    (hdecode : Request.decode frame = .ok request) :
    (react h (.frame frame)).2.random = (h.own.settle h.random request).random := by
  obtain ⟨log, hreact⟩ := react_frame h frame
  rw [hreact]
  dsimp only
  rw [reply_of_decode hdecode]

theorem credential_openedTransaction (e : Endpoint) (c : Auth0Command) (random : RandomSource) :
    ∃ session, (e.openedTransaction c (e.freshSession random c)).session? = some session ∧
      session.credential = (e.choice random.keyPair.2 c.readerIdentifier.group).1 := by
  unfold openedTransaction
  split
  · exact ⟨_, rfl, rfl⟩
  · exact ⟨_, rfl, rfl⟩

/-- An accepted AUTH0 chooses evenly among the credentials that are enrolled for the reader's group, with what is drawn
behind the ephemeral key. The choice ends unless every word that may be drawn is refused. -/
theorem auth0_chooses {h : Hosted Endpoint} {frame : Bytes} {c : Auth0Command} {enrolled : List Credential}
    (haccepts : (Moment.of h (.frame frame)).Accepts (.auth0 c))
    (henrolled : h.own.store.findCredentials c.readerIdentifier.group = enrolled)
    (hcount : enrolled.length < UInt32.size) :
    (∃ session, (react h (.frame frame)).2.own.transaction.session? = some session ∧
      (h.random.keyPair.2.Chooses h.own.store.dummyCredential enrolled session.credential
          (react h (.frame frame)).2.random ∨
        2 ≤ enrolled.length ∧ h.random.keyPair.2.Starves enrolled.length maxDraws)) ∧
    (2 ≤ enrolled.length → Evenly enrolled.length) := by
  obtain ⟨_, _, hframe, hdecode, hok⟩ := accepts_iff.mp haccepts
  cases hframe
  obtain ⟨-, -, -, hsettle⟩ := settleAuth0_eq_of_ok hok
  obtain ⟨session, hsession, hcredential⟩ := credential_openedTransaction h.own c h.random
  have hafter : (react h (.frame frame)).2.own.transaction =
      h.own.openedTransaction c (h.own.freshSession h.random c) := by
    rw [react_of_decode hdecode]
    show (h.own.settleAuth0 h.random c).endpoint.transaction = _
    rw [hsettle]
  have hrandom : (react h (.frame frame)).2.random =
      (h.own.choice h.random.keyPair.2 c.readerIdentifier.group).2 := by
    rw [random_of_decode hdecode]
    show (h.own.settleAuth0 h.random c).random = _
    rw [hsettle]
  refine ⟨⟨session, by rw [hafter]; exact hsession, ?_⟩, fun hseveral => evenly (by omega) hcount⟩
  rw [hcredential, hrandom, choice, henrolled]
  exact h.random.keyPair.2.choose?_cases h.own.store.dummyCredential hcount

/-! ### Three credentials -/

/-- The credential whose private key is the number, counted from one. -/
def numberedCredential (number : Fin 3) : Credential :=
  ⟨.ofPrivateKey ⟨number + 1, Nat.succ_pos _, Nat.lt_of_le_of_lt number.isLt (by decide)⟩⟩

def threeCredentials : List Credential := [numberedCredential 0, numberedCredential 1, numberedCredential 2]

/-- An endpoint after SELECT with three credentials for one group, and a source whose first word behind the ephemeral
key is refused. -/
def crowded : Hosted Endpoint where
  own :=
    { store := { waiting.own.store with credentials := [(standardCommand.readerIdentifier.group, threeCredentials)] }
      transaction := .selectDone
      versions := .standard }
  random := ⟨fun i => if i < 36 then 0xAA else 0x60, 0⟩
  log := []

theorem findCredentials_crowded :
    crowded.own.store.findCredentials standardCommand.readerIdentifier.group = threeCredentials := by
  have hsame : Table.get? crowded.own.store.credentials standardCommand.readerIdentifier.group = some threeCredentials := by
    show (List.find? _ [_]).map _ = _
    rw [List.find?_cons_of_pos (by exact decide_eq_true rfl)]
    rfl
  rw [CredentialStore.findCredentials, hsame]
  rfl

theorem keyPair_crowded : crowded.random.keyPair.2 = crowded.random.skip 32 :=
  keyPair_of_inRange (by decide +kernel) (by decide +kernel)

theorem wordAt_crowded :
    indexOfWord? threeCredentials.length ((crowded.random.skip 32).wordAt 0) = none ∧
    indexOfWord? threeCredentials.length ((crowded.random.skip 32).wordAt 1) = some 1 := by
  decide +kernel

theorem not_starves_crowded : ¬ (crowded.random.skip 32).Starves threeCredentials.length maxDraws := by
  intro hstarves
  cases (hstarves 1 (by decide)).symm.trans wordAt_crowded.2

theorem chooses_crowded {credential : Credential} {after : RandomSource}
    (hchooses : (crowded.random.skip 32).Chooses crowded.own.store.dummyCredential threeCredentials credential after) :
    credential = numberedCredential 1 ∧ after = (crowded.random.skip 32).skip 8 := by
  obtain ⟨hfirst, hsecond⟩ := wordAt_crowded
  obtain ⟨n, i, hrun, hvalue, hafter⟩ := hchooses.among_of_several (by decide)
  obtain ⟨hrefused, hlast⟩ := (words_mem_runs_iff _ n i).mp hrun
  rcases n with _ | _ | n
  · cases hlast.symm.trans hfirst
  · cases hlast.symm.trans hsecond
    cases hvalue
    exact ⟨rfl, hafter⟩
  · cases (hrefused 1 (by omega)).symm.trans hsecond

/-- The second of three credentials answers, after one word that is refused. -/
theorem auth0_chooses_second :
    (Moment.of crowded (.frame standardCommand.encode)).Accepts (.auth0 standardCommand) ∧
    crowded.own.store.findCredentials standardCommand.readerIdentifier.group = threeCredentials ∧
    threeCredentials.length < UInt32.size ∧
    ∃ session, (react crowded (.frame standardCommand.encode)).2.own.transaction.session? = some session ∧
      session.credential = numberedCredential 1 ∧
      (react crowded (.frame standardCommand.encode)).2.random = (crowded.random.skip 32).skip 8 := by
  have haccepts := (react_auth0 (h := crowded) decode_standardCommand rfl (by decide)).1
  obtain ⟨⟨session, hsession, hchosen⟩, -⟩ := auth0_chooses haccepts findCredentials_crowded (by decide)
  rw [keyPair_crowded] at hchosen
  rcases hchosen with hchooses | ⟨-, hstarves⟩
  · exact ⟨haccepts, findCredentials_crowded, by decide, session, hsession, chooses_crowded hchooses⟩
  · exact absurd hstarves not_starves_crowded

end TapAccess.Endpoint
