import TapAccess.Proofs.Endpoint.Atomicity

/-!
# A version that both sides know

`negotiation_exact`: a reader that is offered an endpoint's versions settles on the one that the endpoint prefers among
those that both support, and on none only if there is none. The endpoint checks the version of AUTH0 against the list
that it offered (`auth0_ne_unsupportedVersion`), so it never turns down what the reader has settled on.
-/

namespace TapAccess.Endpoint

open TapAccess.Action

theorem auth0_ne_unsupportedVersion {h : Hosted Endpoint} {c : Auth0Command}
    (hsupports : h.own.versions.Supports c.version) (version : Version) (after : Hosted Endpoint) :
    auth0 c h ≠ .error (.unsupportedVersion version) after := by
  intro hrun
  obtain ⟨log, hsettles⟩ := auth0_settles (h := h) c
  rw [outcome_error hrun, Prod.mk.injEq] at hsettles
  have hresult := hsettles.1
  unfold settleAuth0 at hresult
  by_cases hphase : h.own.transaction.phase ≠ .selectDone
  · rw [if_pos hphase] at hresult
    cases hresult
  · rw [if_neg hphase, if_neg (not_not_intro hsupports)] at hresult
    cases hresult

/-- What a reader that supports `ours` settles on. From an endpoint's list, with a byte behind it or not, it takes the
first version that it supports, and the endpoint that answered SELECT with its list accepts that version in AUTH0. Of
the reader's own list only the versions count, not their order or how often they stand in it. From any bytes it takes
the first pair that spells a version it supports. -/
theorem negotiation_exact (ours : Versions) :
    (∀ (theirs : Versions) (trailing : Option UInt8),
      ours.negotiate? (theirs.encode ++ trailing.toList) =
          theirs.supported.find? (fun version => version ∈ ours.supported) ∧
        (ours.negotiate? (theirs.encode ++ trailing.toList) = none ↔
          ∀ version ∈ theirs.supported, version ∉ ours.supported)) ∧
    (∀ (h : Hosted Endpoint) (trailing : Option UInt8) (c : Auth0Command),
      ours.negotiate? ((SelectResponse.ofVersions h.own.versions).supportedVersions ++ trailing.toList) =
          some c.version →
        h.own.versions.Supports c.version ∧
          ∀ version after, auth0 c h ≠ .error (.unsupportedVersion version) after) ∧
    (∀ others : Versions, (∀ version, version ∈ others.supported ↔ version ∈ ours.supported) →
      ∀ offer, others.negotiate? offer = ours.negotiate? offer) ∧
    ∀ (offer : Bytes) (version : Version), ours.negotiate? offer = some version ↔
      ∃ i, Versions.Offers offer i version ∧ ours.Supports version ∧
        ∀ j < i, ∀ earlier, Versions.Offers offer j earlier → ¬ ours.Supports earlier := by
  refine ⟨fun theirs trailing => ⟨?_, ?_⟩, fun h trailing c hnegotiated => ?_, fun others hsame => ?_,
    fun offer version => Versions.negotiate?_eq_some_iff⟩
  · exact Versions.negotiate?_encode_append ours theirs trailing
  · exact Versions.negotiate?_encode_append_eq_none_iff ours theirs trailing
  · have hoffered : h.own.versions.supported.find? (fun version => ours.Supports version) = some c.version :=
      (Versions.negotiate?_encode_append ours h.own.versions trailing).symm.trans hnegotiated
    have hsupports : h.own.versions.Supports c.version := List.mem_of_find?_eq_some hoffered
    exact ⟨hsupports, auth0_ne_unsupportedVersion hsupports⟩
  · exact Versions.negotiate?_congr hsame

/-- An endpoint whose two versions spell a third one between them. -/
def straddled : Hosted Endpoint where
  own := ⟨waiting.own.store, .selectDone, ⟨[0x0100, 0x0107]⟩⟩
  random := waiting.random
  log := []

/-- The version between the two is not on offer, however often and in whichever order a reader lists it. -/
theorem negotiation_exact_straddled :
    Versions.encode ⟨[0x0100, 0x0107]⟩ = [0x01, 0x00, 0x01, 0x07] ∧
    Versions.negotiate? ⟨[0x0001, 0x0107]⟩ [0x01, 0x00, 0x01, 0x07, 0x00] = some 0x0107 ∧
    (∀ version after, auth0 { standardCommand with version := 0x0107 } straddled ≠
      .error (.unsupportedVersion version) after) ∧
    Versions.negotiate? ⟨[0x0107, 0x0001, 0x0107]⟩ [0x01, 0x00, 0x01, 0x07, 0x00] = some 0x0107 := by
  have hnegotiated : Versions.negotiate? ⟨[0x0001, 0x0107]⟩ [0x01, 0x00, 0x01, 0x07, 0x00] = some 0x0107 := by decide
  have hbytes : Versions.encode ⟨[0x0100, 0x0107]⟩ = [0x01, 0x00, 0x01, 0x07] := by decide
  have hanswer : Versions.negotiate? ⟨[0x0001, 0x0107]⟩
      ((SelectResponse.ofVersions straddled.own.versions).supportedVersions ++ (some 0x00).toList) = some 0x0107 := by
    show Versions.negotiate? _ (Versions.encode ⟨[0x0100, 0x0107]⟩ ++ [0x00]) = _
    rw [hbytes]
    exact hnegotiated
  have hsame (version : Version) : version ∈ (⟨[0x0107, 0x0001, 0x0107]⟩ : Versions).supported ↔
      version ∈ (⟨[0x0001, 0x0107]⟩ : Versions).supported := by
    simp only [List.mem_cons, List.not_mem_nil]
    grind
  refine ⟨hbytes, hnegotiated, ?_, ?_⟩
  · exact ((negotiation_exact ⟨[0x0001, 0x0107]⟩).2.1 straddled (some 0x00) { standardCommand with version := 0x0107 }
      hanswer).2
  · exact ((negotiation_exact ⟨[0x0001, 0x0107]⟩).2.2.1 _ hsame _).trans hnegotiated

end TapAccess.Endpoint
