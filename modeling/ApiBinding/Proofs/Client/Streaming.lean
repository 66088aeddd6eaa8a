import ApiBinding.Proofs.Client.Addressing
import ApiBinding.Proofs.Method.Request

/-!
What becomes of references that list methods for streaming. A reference that leads to nothing is
warned about, once all operations are known, and so is each operation it leads to of which nothing
can be handed over item by item; no other operation is streamed.
-/

namespace ApiBinding

/-- What of an operation settings may list to be handed over item by item. -/
inductive Streamed where
  | response
  | request

namespace Streamed

def setting : Streamed → Setting
  | .response => .streamedResponses
  | .request => .streamedRequests

/-- The references to methods of which settings list it. -/
def references (settings : Settings) : Streamed → List MethodReference
  | .response => settings.streamedResponses
  | .request => settings.streamedRequests

/-- Whether it has items that can be handed over one by one. -/
def canStream (operation : Operation) : Streamed → Bool
  | .response => operation.hasStreamableResponse
  | .request => operation.hasStreamableBody

/-- Whether a method hands it over item by item. -/
def IsItemwise (method : Method) : Streamed → Prop
  | .response => method.responseMode.isStreamed = true
  | .request => method.requestMode = .streamed

/-- The warning that it is listed without having items. -/
def refusal (client method : String) : Streamed → Warning
  | .response => .notStreamableResponse client method
  | .request => .notStreamableRequest client method

variable {operation : Operation} {settings : Settings} {names : Operation.Names} {method : Method}
  {side : Streamed}

/-- Whether settings list it of the operation. -/
def IsAskedFor (side : Streamed) (settings : Settings) (operation : Operation) : Prop :=
  ∃ reference ∈ side.references settings, operation.AnswersTo settings reference

theorem isAskedFor_iff : side.IsAskedFor settings operation ↔
    operation.IsListed settings (side.references settings) := by
  simp only [IsAskedFor, Operation.answersTo_iff, Operation.IsListed, List.mem_singleton,
    exists_eq_left]

theorem lists_references (named : operation.names settings = .ok names) :
    MethodReference.lists (side.references settings) names.pairs = true ↔
      side.IsAskedFor settings operation := by
  rw [Operation.lists_iff named, isAskedFor_iff]

theorem isItemwise_iff (made : operation.toMethod settings = .ok method) :
    side.IsItemwise method ↔ side.IsAskedFor settings operation ∧ side.canStream operation = true := by
  obtain ⟨names, declared, result, cases, making⟩ := Operation.toMethod_eq_ok made
  have listed : MethodReference.lists (side.references settings) names.pairs = true ↔
      side.IsAskedFor settings operation := lists_references making.named
  cases side with
  | response =>
    rw [← listed, IsItemwise, making.responseMode, Operation.responseMode,
      Operation.isStreamed_ofFlags, Operation.streamsResponse, Bool.and_eq_true]
    rfl
  | request =>
    rw [← listed, IsItemwise, (Operation.makesBody making).streamed_iff,
      ← Operation.streamsRequest_iff making.named, Operation.streamsRequest, Bool.and_eq_true]
    rfl

theorem refusal_mem_warnings (named : operation.names settings = .ok names)
    {client name : String} : side.refusal client name ∈ operation.warnings settings names ↔
      names.client = client ∧ names.method = name ∧
        side.IsAskedFor settings operation ∧ side.canStream operation = false := by
  rw [← lists_references named]
  cases side
  all_goals
    simp only [Operation.warnings, refusal, references, canStream, List.mem_append, List.mem_map,
      reduceCtorEq, and_false, exists_false, List.mem_ite_nil_right, Bool.and_eq_true,
      Bool.not_eq_true', List.mem_singleton, false_or, or_false,
      Warning.notStreamableResponse.injEq, Warning.notStreamableRequest.injEq]
    exact ⟨fun ⟨⟨listed, cannot⟩, client, name⟩ => ⟨client.symm, name.symm, listed, cannot⟩,
      fun ⟨client, name, listed, cannot⟩ => ⟨⟨listed, cannot⟩, client.symm, name.symm⟩⟩

end Streamed

namespace Client

variable {description : Description} {settings : Settings} {before : Option Nat}
  {operations : List Operation} {members : List Member} {clients : List Client}
  {side : Streamed}

/-- Where all operations give methods, the warnings on the way are those of the operations. -/
theorem mem_warnings_toMethods (made : (toMethods settings before operations).result = .ok members)
    {warning : Warning} : warning ∈ (toMethods settings before operations).warnings ↔
      ∃ operation ∈ operations, ∃ names, operation.names settings = .ok names ∧
        warning ∈ operation.warnings settings names := by
  induction operations generalizing before members with
  | nil => simp [toMethods]
  | cons operation rest ih =>
    rw [toMethods] at made ⊢
    split at made
    next => cases made
    next onward =>
      rw [if_neg onward]
      split at made
      next => cases made
      next names named =>
        dsimp only at made ⊢
        split at made
        next => cases made
        next method _ =>
          obtain ⟨others, made, _⟩ := map_eq_ok.mp made
          simp only [List.mem_append, ih made, List.mem_cons, exists_eq_or_imp, named,
            Except.ok.injEq, exists_eq_left']

theorem mem_allUnmatched {pairs : List (String × String)} {text : String} :
    .unmatchedReference side.setting.key text ∈ allUnmatched settings pairs ↔
      ∃ reference ∈ side.references settings, reference.identifiers ∉ pairs ∧
        reference.text = text := by
  cases side <;>
    simp [allUnmatched, unmatched, Streamed.setting, Streamed.references, Setting.key, and_assoc]

theorem refusal_not_mem_allUnmatched {pairs : List (String × String)} {client name : String} :
    side.refusal client name ∉ allUnmatched settings pairs := by
  cases side <;> simp [allUnmatched, unmatched, Streamed.refusal]

theorem unmatched_not_mem_warnings {operation : Operation} {names : Operation.Names}
    {setting text : String} :
    .unmatchedReference setting text ∉ operation.warnings settings names := by
  simp [Operation.warnings]

/-- The pairs by which operations are known are those of the references that they answer to. -/
theorem mem_pairs_iff {names : List Operation.Names}
    (named : operations.mapM (fun operation => operation.names settings) = .ok names)
    {reference : MethodReference} :
    reference.identifiers ∈ names.flatMap Operation.Names.pairs ↔
      ∃ operation ∈ operations, operation.AnswersTo settings reference := by
  have named := mapM_eq_ok.mp named
  rw [List.mem_flatMap]
  constructor
  · rintro ⟨one, member, among⟩
    obtain ⟨operation, inside, own⟩ := exists_of_forall₂ named member
    exact ⟨operation, inside, one, own, among⟩
  · rintro ⟨operation, inside, one, own, among⟩
    obtain ⟨other, member, same⟩ := exists_of_forall₂ named.flip inside
    cases own.symm.trans same
    exact ⟨one, member, among⟩

/-- What a run that gives clients warns about on references and on streaming. -/
structure Warns (description : Description) (settings : Settings) (warnings : List Warning) :
    Prop where
  unmatched : ∀ (side : Streamed) text, .unmatchedReference side.setting.key text ∈ warnings ↔
    ∃ reference ∈ side.references settings, reference.text = text ∧
      ∀ operation ∈ description.operations, ¬operation.AnswersTo settings reference
  refused : ∀ (side : Streamed) client name, side.refusal client name ∈ warnings ↔
    ∃ operation ∈ description.operations, ∃ names, operation.names settings = .ok names ∧
      names.client = client ∧ names.method = name ∧
      side.IsAskedFor settings operation ∧ side.canStream operation = false

theorem warns_of_ofDescription
    (made : (ofDescription description settings before).result = .ok clients) :
    Warns description settings (ofDescription description settings before).warnings := by
  unfold ofDescription at made ⊢
  split at made
  next => cases made
  next names named =>
    obtain ⟨members, methods, _⟩ := bind_eq_ok.mp made
    dsimp only
    constructor
    · intro side text
      have none : .unmatchedReference side.setting.key text ∉
          (toMethods settings before description.operations).warnings := by
        rw [mem_warnings_toMethods methods]
        rintro ⟨operation, _, names, _, among⟩
        exact unmatched_not_mem_warnings among
      simp only [List.mem_append, none, or_false, mem_allUnmatched, mem_pairs_iff named,
        not_exists, not_and, and_comm]
    · intro side client name
      rw [List.mem_append, or_iff_right refusal_not_mem_allUnmatched,
        mem_warnings_toMethods methods]
      refine exists_congr fun operation => and_congr_right fun _ => exists_congr fun names => ?_
      exact and_congr_right fun named => Streamed.refusal_mem_warnings named

/-- Whether the method of an operation is one of the client of its tag. -/
def Holds (settings : Settings) (clients : List Client) (operation : Operation)
    (method : Method) : Prop :=
  operation.toMethod settings = .ok method ∧
    ∃ client ∈ clients, client.tag = operation.tag ∧ method ∈ client.methods

theorem Built.exists_holds {taken : NameTable}
    (built : Built description settings members clients taken) {operation : Operation}
    (h : operation ∈ description.operations) : ∃ method, Holds settings clients operation method := by
  obtain ⟨client, inside, tagged, method, given, made⟩ := built.exists_method h
  exact ⟨method, made, client, inside, tagged, given⟩

/-- Where clients come out, a reference that lists methods for streaming leads to a method that is
streamed, or there is a warning that it leads to no operation, or one that an operation it leads to
cannot be streamed. What no such reference leads to is not streamed. Each warning is true: there is
one for every reference that leads nowhere, and one for every operation that is listed in vain. -/
theorem streaming_accounted_for (description : Description) (settings : Settings)
    (before : Option Nat) {clients : List Client}
    (made : (ofDescription description settings before).result = .ok clients) (side : Streamed) :
    (∀ reference ∈ side.references settings,
      (∃ operation ∈ description.operations, operation.AnswersTo settings reference ∧
        ∃ method, Holds settings clients operation method ∧ side.IsItemwise method) ∨
      .unmatchedReference side.setting.key reference.text ∈
        (ofDescription description settings before).warnings ∨
      ∃ operation ∈ description.operations, operation.AnswersTo settings reference ∧
        ∃ names, operation.names settings = .ok names ∧ side.refusal names.client names.method ∈
          (ofDescription description settings before).warnings) ∧
    (∀ operation ∈ description.operations, ¬side.IsAskedFor settings operation →
      ∃ method, Holds settings clients operation method ∧ ¬side.IsItemwise method) ∧
    (∀ text, .unmatchedReference side.setting.key text ∈
        (ofDescription description settings before).warnings ↔
      ∃ reference ∈ side.references settings, reference.text = text ∧
        ∀ operation ∈ description.operations, ¬operation.AnswersTo settings reference) ∧
    ∀ client name, side.refusal client name ∈
        (ofDescription description settings before).warnings ↔
      ∃ operation ∈ description.operations, ∃ names, operation.names settings = .ok names ∧
        names.client = client ∧ names.method = name ∧ side.IsAskedFor settings operation ∧
        ∃ method, Holds settings clients operation method ∧ ¬side.IsItemwise method := by
  obtain ⟨members, taken, built⟩ := built_of_ofDescription made
  have warns := warns_of_ofDescription made
  refine ⟨fun reference listed => ?_, fun operation inside unasked => ?_, warns.unmatched side,
    fun client name => ?_⟩
  · by_cases matched :
        ∃ operation ∈ description.operations, operation.AnswersTo settings reference
    · obtain ⟨operation, inside, answers⟩ := matched
      have asked : side.IsAskedFor settings operation := ⟨reference, listed, answers⟩
      obtain ⟨method, holds⟩ := built.exists_holds inside
      cases can : side.canStream operation with
      | true =>
        exact .inl ⟨operation, inside, answers, method, holds,
          (Streamed.isItemwise_iff holds.1).mpr ⟨asked, can⟩⟩
      | false =>
        obtain ⟨names, named, _⟩ := id answers
        have warned := (warns.refused side names.client names.method).mpr
          ⟨operation, inside, names, named, rfl, rfl, asked, can⟩
        exact .inr (.inr ⟨operation, inside, answers, names, named, warned⟩)
    · have none : ∀ operation ∈ description.operations,
          ¬operation.AnswersTo settings reference :=
        fun operation inside answers => matched ⟨operation, inside, answers⟩
      exact .inr (.inl ((warns.unmatched side _).mpr ⟨reference, listed, rfl, none⟩))
  · obtain ⟨method, holds⟩ := built.exists_holds inside
    exact ⟨method, holds, fun streamed => unasked ((Streamed.isItemwise_iff holds.1).mp streamed).1⟩
  · rw [warns.refused side]
    refine exists_congr fun operation => and_congr_right fun inside => exists_congr fun names => ?_
    refine and_congr_right fun _ => and_congr_right fun _ => and_congr_right fun _ =>
      and_congr_right fun asked => ?_
    obtain ⟨method, holds⟩ := built.exists_holds inside
    constructor
    · intro cannot
      refine ⟨method, holds, fun streamed => ?_⟩
      rw [((Streamed.isItemwise_iff holds.1).mp streamed).2] at cannot
      cases cannot
    · rintro ⟨method, holds, whole⟩
      by_contra can
      rw [Bool.not_eq_false] at can
      exact whole ((Streamed.isItemwise_iff holds.1).mpr ⟨asked, can⟩)

/-- An operation that answers with a text beside one that answers with a list of them. -/
def pets : Description where
  operations := [listing "Pet", .answering "Pet" "Find" [("200", .primitive .string false)]]

/-- Settings that list both operations, and one that is not there. -/
def streamingPets : Settings :=
  { Settings.standard with
    streamedResponses := [⟨"Pet", "Find"⟩, ⟨"Pet", "List"⟩, ⟨"Pet", "Lost"⟩] }

/-- Of three references one leads to a method that is streamed; on the others there are warnings. -/
theorem streaming_accounted_for_pets :
    ∃ clients, (ofDescription pets streamingPets).result = .ok clients ∧
      (ofDescription pets streamingPets).warnings.map Warning.message =
        ["large_array_response_methods lists Pet.Lost, which matches no operation",
          "PetClient.find is listed for response streaming but does not return an array"] ∧
      ∃ operation ∈ pets.operations, operation.AnswersTo streamingPets ⟨"Pet", "List"⟩ ∧
        ∃ method, Holds streamingPets clients operation method ∧
          Streamed.response.IsItemwise method := by
  have built : (ofDescription pets streamingPets).result.isOk = true := by decide +kernel
  obtain ⟨clients, made⟩ := exists_eq_ok built
  have messages : (ofDescription pets streamingPets).warnings.map Warning.message =
      ["large_array_response_methods lists Pet.Lost, which matches no operation",
        "PetClient.find is listed for response streaming but does not return an array"] := by
    decide +kernel
  have unwarned {warning : Warning} (h : warning ∈ (ofDescription pets streamingPets).warnings) :
      warning.message ∈
        ["large_array_response_methods lists Pet.Lost, which matches no operation",
          "PetClient.find is listed for response streaming but does not return an array"] :=
    messages ▸ List.mem_map_of_mem h
  refine ⟨clients, made, messages, ?_⟩
  have listed : ⟨"Pet", "List"⟩ ∈ Streamed.response.references streamingPets := by
    simp [Streamed.references, streamingPets]
  obtain streamed | unmatched | ⟨operation, inside, answers, names, named, refused⟩ :=
    (streaming_accounted_for pets streamingPets none made .response).1 _ listed
  · exact streamed
  · exact absurd (unwarned unmatched) (by decide +kernel)
  · rw [pets, List.mem_cons, List.mem_singleton] at inside
    rcases inside with rfl | rfl
    · cases named
      exact absurd (unwarned refused) (by decide +kernel)
    · obtain ⟨_, own, among⟩ := answers
      cases own
      exact absurd among (by decide +kernel)

end Client

end ApiBinding
