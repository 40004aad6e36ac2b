import TapAccess.Proofs.Message.Commands
import TapAccess.Proofs.Tlv.FirstObjects

/-!
# Messages and the order of their objects

Each of the five messages that are made of objects is put together from look-ups of the first object of some tag, one
field after the other. A field that has to be there and is not, or that does not hold what it should, ends this with an
error, so the order of the fields decides which error it is. The order of the objects does not
(`messages_depend_on_first`).
-/

namespace TapAccess

open Tlv Tlv.Object

/-! ### What the fields are read from -/

theorem Auth0Command.readsOnly_ofObjects :
    ReadsOnly [0x41, 0x42, 0x5C, 0x87, 0x4C, 0x4D] Auth0Command.ofObjects := by
  refine readsOnly_field (by decide) fun parameter => ?_
  refine readsOnly_field (by decide) fun code => ?_
  refine readsOnly_field (by decide) fun version => ?_
  refine readsOnly_field (by decide) fun point => readsOnly_bind (readsOnly_const _) fun readerEphemeral => ?_
  refine readsOnly_field (by decide) fun transactionIdentifier => ?_
  exact readsOnly_field (by decide) fun name => readsOnly_bind (readsOnly_const _) fun _ => readsOnly_const _

theorem Auth1Command.readsOnly_ofObjects : ReadsOnly [0x41, 0x9E, 0x90] Auth1Command.ofObjects := by
  refine readsOnly_field (by decide) fun parameter => ?_
  refine readsOnly_field (by decide) fun readerSignature => ?_
  exact readsOnly_bind (readsOnly_optionalValue (by decide)) fun _ => readsOnly_const _

theorem ControlFlowCommand.readsOnly_ofObjects : ReadsOnly [0x41, 0x42, 0x43] ControlFlowCommand.ofObjects := by
  refine readsOnly_field (by decide) fun s1 => ?_
  refine readsOnly_field (by decide) fun s2 => ?_
  exact readsOnly_bind (readsOnly_optionalValue (by decide)) fun _ => readsOnly_const _

theorem Auth0Response.readsOnly_ofObjects : ReadsOnly [0x86, 0x9D] Auth0Response.ofObjects := by
  refine readsOnly_field (by decide) fun point => readsOnly_bind (readsOnly_const _) fun endpointEphemeral => ?_
  refine readsOnly_bind (readsOnly_optionalValue (by decide)) fun cryptogram => ?_
  exact readsOnly_bind (readsOnly_const _) fun _ => readsOnly_const _

theorem Auth1Plaintext.readsOnly_ofObjects : ReadsOnly [0x9E, 0x5A, 0x4E] Auth1Plaintext.ofObjects := by
  refine readsOnly_field (by decide) fun endpointSignature => ?_
  refine readsOnly_bind (readsOnly_optionalValue (by decide)) fun point => ?_
  refine readsOnly_bind (readsOnly_const _) fun endpointKey => ?_
  exact readsOnly_bind (readsOnly_optionalValue (by decide)) fun _ => readsOnly_const _

/-! ### The messages -/

/-- Whatever stands in the header of a command or in the status word of a response, the objects of the message are read
to the same value or to the same error as long as the first object of each of the message's tags is the same. -/
theorem messages_depend_on_first :
    (∀ c : Command, DependsOnFirst [0x41, 0x42, 0x5C, 0x87, 0x4C, 0x4D]
      fun data => Auth0Command.ofCommand { c with data }) ∧
    (∀ c : Command, DependsOnFirst [0x41, 0x9E, 0x90] fun data => Auth1Command.ofCommand { c with data }) ∧
    (∀ c : Command, DependsOnFirst [0x41, 0x42, 0x43] fun data => ControlFlowCommand.ofCommand { c with data }) ∧
    (∀ status : StatusWord, DependsOnFirst [0x86, 0x9D] fun payload => Auth0Response.ofResponse ⟨status, payload⟩) ∧
    DependsOnFirst [0x9E, 0x5A, 0x4E] Auth1Plaintext.decode :=
  ⟨fun _ => dependsOnFirst_of_readsOnly Auth0Command.readsOnly_ofObjects fun _ => rfl,
    fun _ => dependsOnFirst_of_readsOnly Auth1Command.readsOnly_ofObjects fun _ => rfl,
    fun _ => dependsOnFirst_of_readsOnly ControlFlowCommand.readsOnly_ofObjects fun _ => rfl,
    fun _ => dependsOnFirst_of_readsOnly Auth0Response.readsOnly_ofObjects fun _ => rfl,
    dependsOnFirst_of_readsOnly Auth1Plaintext.readsOnly_ofObjects fun _ => rfl⟩

namespace Auth1Command

/-- AUTH1 with two objects. -/
def plain : Auth1Command := .ofSignature (.replicate 64 0x11)

/-- An object with objects inside. -/
def nested : Tlv.Object := (SelectResponse.ofVersions .standard).toObject

/-- An object with a tag of two bytes. -/
def longTagged : Tlv.Object := .primitive ⟨[0x5F, 0x2D], by decide⟩ [0x65, 0x6E] (by decide)

/-- The two objects in the other order, among objects that do not belong to the message and before another parameter. -/
def shuffled : List Tlv.Object := nested :: plain.toObjects.reverse ++ [longTagged, .firstParameter 0x00]

theorem rearranged_shuffled : Relation.EqvGen (Rearrangement [0x41, 0x9E, 0x90]) plain.toObjects shuffled := by
  have hswapped : Rearrangement [0x41, 0x9E, 0x90] plain.toObjects plain.toObjects.reverse :=
    .swapped [] [] (by decide)
  have hnested : Rearrangement [0x41, 0x9E, 0x90] plain.toObjects.reverse (nested :: plain.toObjects.reverse) := by
    refine .inserted [] _ nested ?_
    simp only [List.forall_mem_cons]
    exact ⟨by decide, by decide, by decide, List.forall_mem_nil _⟩
  have hlongTagged : Rearrangement [0x41, 0x9E, 0x90] (nested :: plain.toObjects.reverse)
      (nested :: plain.toObjects.reverse ++ [longTagged]) := by
    refine .inserted (nested :: plain.toObjects.reverse) [] longTagged ?_
    simp only [List.forall_mem_cons]
    exact ⟨by decide, by decide, by decide, List.forall_mem_nil _⟩
  have hknown : firstParameter 0x01 ∈ nested :: plain.toObjects.reverse ++ [longTagged] := by
    simp [plain, ofSignature, toObjects]
  have hrepeated : Rearrangement [0x41, 0x9E, 0x90] (nested :: plain.toObjects.reverse ++ [longTagged]) shuffled :=
    .repeated (nested :: plain.toObjects.reverse ++ [longTagged]) [] _ ⟨_, hknown, rfl⟩
  exact .trans _ _ _ (.trans _ _ _ (.rel _ _ hswapped) (.rel _ _ hnested))
    (.trans _ _ _ (.rel _ _ hlongTagged) (.rel _ _ hrepeated))

/-- The shuffled objects are read as the plain command. -/
theorem messages_depend_on_first_shuffled :
    (∀ o ∈ plain.toObjects, o.contents.length < 2 ^ 32) ∧ (∀ o ∈ shuffled, o.contents.length < 2 ^ 32) ∧
    SameFirst [0x41, 0x9E, 0x90] plain.toObjects shuffled ∧
    Relation.EqvGen (Rearrangement [0x41, 0x9E, 0x90]) plain.toObjects shuffled ∧
    ofCommand { plain.toCommand with data := encodeAll shuffled } = .ok plain := by
  have hplain : ∀ o ∈ plain.toObjects, o.contents.length < 2 ^ 32 := by decide
  have hshuffled : ∀ o ∈ shuffled, o.contents.length < 2 ^ 32 := by decide
  have hsame := sameFirst_of_rearranged rearranged_shuffled
  have hread : ofCommand plain.toCommand = .ok plain := by
    have hparse : Tlv.Object.parse plain.toCommand.data = .ok plain.toObjects := parse_of_contents hplain
    rw [ofCommand, hparse]
    exact ofObjects_toObjects plain
  refine ⟨hplain, hshuffled, hsame, rearranged_shuffled, ?_⟩
  rw [← (messages_depend_on_first.2.1 plain.toCommand).sameFirst _ _ hplain hshuffled hsame]
  exact hread

end Auth1Command

end TapAccess
