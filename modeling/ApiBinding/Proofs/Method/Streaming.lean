import ApiBinding.Proofs.Method.ResponseTable
import ApiBinding.Proofs.Method.NullResult

/-!
What a streamed method reads item by item: the bodies of all its successes, whether they are arrays
or not. Only the success that gives the result is looked at when the mode is chosen.
-/

namespace ApiBinding

namespace TypeHint

theorem genericContainer_ne_stream (name : String) : genericContainer name ≠ .stream := by
  unfold genericContainer
  dsimp only
  split
  · nofun
  · split <;> nofun

/-- In a result that is read item by item, the hint of a shape is a stream exactly if the shape is
an array that can be streamed. -/
theorem isStream_ofShape_iff (shape : Shape) :
    Operation.IsStream
        ((ofShape { usage := .response, streamsResult := true } shape).withNull false) ↔
      shape.canStream = true := by
  unfold Operation.IsStream
  cases shape with
  | primitive kind nullable =>
    cases kind <;> simp [ofShape, ofPrimitive, withNull, Shape.canStream]
  | array element nullable streamable =>
    cases streamable <;> simp [ofShape, withNull, Context.arrayContainer, Shape.canStream]
  | object name fields additional nullable =>
    cases label : Shape.label? name <;> cases additional <;>
      simp [ofShape, label, withNull, Shape.canStream]
  | enumeration name members nullable =>
    cases label : Shape.label? name <;> cases empty : members.isEmpty <;>
      simp [ofShape, label, empty, withNull, Shape.canStream]
  | generic name argument nullable =>
    simp [ofShape, withNull, Shape.canStream, genericContainer_ne_stream]
  | unknown description nullable => simp [ofShape, withNull, Shape.canStream]

end TypeHint

namespace Operation

open TypeHint (ofShape)

variable {operation : Operation} {settings : Settings} {method : Method} {mode : ResponseMode}
  {cases : List StatusCase} {response : Response} {c : StatusCase}

/-- Whether the body of a response, where it has one, is an array that can be streamed. -/
def AtMostItems (response : Response) : Prop :=
  ∀ shape, response.type = some shape → shape.canStream = true

theorem Gives.openStream_iff (streamed : mode.isStreamed = true) (gives : Gives mode response c) :
    c.action = .openStream ↔ response.isSuccess = true ∧ response.type.isSome = true := by
  cases gives with
  | nothing _ _ whole => simp [streamed] at whole
  | missing success empty => simp [empty]
  | items success typed => simp [success, typed]
  | bytes _ _ whole => simp [streamed] at whole
  | orNull _ _ whole => simp [streamed] at whole
  | value _ _ whole => simp [streamed] at whole
  | failure error => simp [error]

theorem Gives.type_of_openStream (gives : Gives mode response c) (reads : c.action = .openStream) :
    ∃ shape, response.type = some shape ∧
      c.type = some ((ofShape { usage := .response, streamsResult := true } shape).withNull false) := by
  cases gives with
  | items _ typed => exact ⟨_, typed, rfl⟩
  | _ => cases reads

/-- Each case that reads items is that of the response declared for its status, and casts to a
stream exactly if the body of that response is an array that can be streamed. -/
theorem exists_response_of_openStream (cased : operation.cases mode = .ok cases) (member : c ∈ cases)
    (reads : c.action = .openStream) :
    ∃ response shape type,
      operation.responses.find? (·.statusKey == c.status) = some response ∧
      response.isSuccess = true ∧ response.type = some shape ∧ c.type = some type ∧
      (IsStream type ↔ shape.canStream = true) := by
  obtain ⟨declared, given, rfl⟩ := cases_eq_ok cased
  rcases mem_cases_iff.mp member with ⟨_, rfl⟩ | member
  · cases reads
  obtain ⟨response, first, gives⟩ := exists_of_forall₂ given member
  obtain ⟨shape, typed, cast⟩ := gives.type_of_openStream reads
  have success := mem_successes_of_gives first gives (by simp [reads])
  refine ⟨response, shape, _, ?_, (List.mem_filter.mp success).2, typed, cast,
    TypeHint.isStream_ofShape_iff shape⟩
  rw [gives.status_eq]
  exact (Entries.mem_firsts Response.statusKey).mp first

theorem exists_openStream_of_body (streamed : mode.isStreamed = true)
    (cased : operation.cases mode = .ok cases)
    (first : response ∈ distinctStatuses operation.responses) (success : response.isSuccess = true)
    {shape : Shape} (typed : response.type = some shape) :
    ∃ c ∈ cases, c.action = .openStream ∧
      c.type = some ((ofShape { usage := .response, streamsResult := true } shape).withNull false) := by
  obtain ⟨declared, given, rfl⟩ := cases_eq_ok cased
  obtain ⟨c, member, gives⟩ := exists_of_forall₂ given.flip first
  have reads := (gives.openStream_iff streamed).mpr ⟨success, by simp [typed]⟩
  obtain ⟨other, same, cast⟩ := gives.type_of_openStream reads
  obtain rfl := Option.some.inj (typed.symm.trans same)
  exact ⟨c, mem_cases_iff.mpr (.inr member), reads, cast⟩

/-- A streamed method reads the body of every declared success item by item. What is read so is cast
to a stream exactly if it is an array that can be streamed, so nothing else is read so exactly if the
successes have no other bodies. -/
theorem only_arrays_streamed_iff (made : operation.toMethod settings = .ok method)
    (streamed : method.responseMode.isStreamed = true) :
    ∃ cases result,
      method.steps.getLast? = some (.response method.responseMode cases result) ∧
      (∀ c ∈ cases, c.action = .openStream →
        ∃ response shape type,
          operation.responses.find? (·.statusKey == c.status) = some response ∧
          response.isSuccess = true ∧ response.type = some shape ∧ c.type = some type ∧
          (IsStream type ↔ shape.canStream = true)) ∧
      ((∀ c ∈ cases, c.action = .openStream → ∃ type, c.type = some type ∧ IsStream type) ↔
        ∀ response ∈ distinctStatuses operation.responses, response.isSuccess = true →
          AtMostItems response) := by
  obtain ⟨names, declared, result, cases, making⟩ := toMethod_eq_ok made
  have cased := making.cased_by_mode
  refine ⟨cases, result, making.getLast?_steps,
    fun c member => exists_response_of_openStream cased member, ?_, ?_⟩
  · intro streams response first success shape typed
    obtain ⟨c, member, reads, cast⟩ := exists_openStream_of_body streamed cased first success typed
    obtain ⟨type, same, stream⟩ := streams c member reads
    obtain rfl := Option.some.inj (cast.symm.trans same)
    exact (TypeHint.isStream_ofShape_iff shape).mp stream
  · intro arrays c member reads
    obtain ⟨response, shape, type, found, success, typed, cast, stream⟩ :=
      exists_response_of_openStream cased member reads
    have first : response ∈ distinctStatuses operation.responses := by
      refine (Entries.mem_firsts Response.statusKey).mpr ?_
      have key : response.statusKey = c.status := by simpa using List.find?_some found
      rwa [key]
    exact ⟨type, cast, stream.mpr (arrays response first success shape typed)⟩

/-- An operation that answers with texts one by one, or otherwise as given. -/
def listingOr (answers : List (String × Shape)) : Operation :=
  answering "Pet" "List" (("200", .array (.primitive .string false) false true) :: answers)

theorem streams_listingOr (answers : List (String × Shape)) :
    (listingOr answers).Streams streamedAndWrapped := by
  let reference : MethodReference := { client := "Pet", method := "List" }
  have method : reference.identifiers.2 = Identifier.ofRaw .method "List" := by decide
  have client : "Pet" ≠ "" ∧ reference.identifiers.1 = Identifier.ofRaw .type "Pet" := by decide
  exact ⟨⟨reference, by simp [streamedAndWrapped, reference], "List", rfl, method, .inr client⟩,
    ⟨_, _, _, rfl, rfl⟩⟩

theorem isStreamed_of_streams (made : operation.toMethod settings = .ok method)
    (streams : operation.Streams settings) : method.responseMode.isStreamed = true := by
  obtain ⟨names, _, _, _, making⟩ := toMethod_eq_ok made
  rw [making.responseMode, responseMode, isStreamed_ofFlags]
  exact (streamsResponse_iff making.named).mpr streams

/-- Arrays are read as streams for each success that has one. -/
theorem only_arrays_streamed_of_two :
    ∃ method cases result,
      (listingOr [("206", .array (.primitive .integer true) true true),
        ("404", .unknown none false)]).toMethod streamedAndWrapped = .ok method ∧
      method.steps.getLast? = some (.response method.responseMode cases result) ∧
      cases.map StatusCase.action = [.openStream, .openStream, .failDeclared] ∧
      ∀ c ∈ cases, c.action = .openStream → ∃ type, c.type = some type ∧ IsStream type := by
  obtain ⟨operation, hop⟩ : ∃ operation, operation = listingOr
      [("206", .array (.primitive .integer true) true true), ("404", .unknown none false)] :=
    ⟨_, rfl⟩
  obtain ⟨method, made⟩ : ∃ method, operation.toMethod streamedAndWrapped = .ok method :=
    exists_eq_ok (by rw [hop]; decide +kernel)
  have streamed := isStreamed_of_streams made (hop ▸ streams_listingOr _)
  obtain ⟨cases, result, last, _, arrays⟩ := only_arrays_streamed_iff made streamed
  have seen : (operation.toMethod streamedAndWrapped).toOption.map
      (fun method => method.steps.getLast?.map fun step => step.cases.map StatusCase.action) =
        some (some [.openStream, .openStream, .failDeclared]) := by
    rw [hop]
    decide +kernel
  rw [made] at seen
  have seen : method.steps.getLast?.map (fun step => step.cases.map StatusCase.action) = _ :=
    Option.some.inj seen
  rw [last] at seen
  refine ⟨method, cases, result, hop ▸ made, last, Option.some.inj seen, arrays.mpr ?_⟩
  have all : distinctStatuses operation.responses = operation.responses := by
    rw [hop]
    rfl
  rw [all, hop]
  simp [listingOr, answering, AtMostItems, Shape.canStream, Response.isSuccess, Response.outcome]

/-- An object that a further success answers with is read item by item and cast to its own type. -/
theorem object_read_as_items :
    ∃ method cases result c,
      (listingOr [("202", .object (some "Job") [] none false)]).toMethod streamedAndWrapped =
        .ok method ∧
      method.responseMode.isStreamed = true ∧
      method.steps.getLast? = some (.response method.responseMode cases result) ∧
      c ∈ cases ∧ c.action = .openStream ∧ c.type = some (.named "Job" true false) ∧
      ¬IsStream (.named "Job" true false) := by
  obtain ⟨operation, hop⟩ : ∃ operation, operation =
    listingOr [("202", .object (some "Job") [] none false)] := ⟨_, rfl⟩
  obtain ⟨method, made⟩ : ∃ method, operation.toMethod streamedAndWrapped = .ok method :=
    exists_eq_ok (by rw [hop]; decide +kernel)
  have streamed := isStreamed_of_streams made (hop ▸ streams_listingOr _)
  obtain ⟨names, declared, result, cases, making⟩ := toMethod_eq_ok made
  have first : { status := "202", type := some (.object (some "Job") [] none false) } ∈
      distinctStatuses operation.responses := by
    rw [hop]
    exact List.mem_cons_of_mem _ (List.mem_cons_self ..)
  obtain ⟨c, member, reads, cast⟩ := exists_openStream_of_body streamed making.cased_by_mode first rfl rfl
  have name : Identifier.ofRaw .type "Job" = "Job" := by decide +kernel
  refine ⟨method, cases, result, c, hop ▸ made, streamed, making.getLast?_steps, member, reads, ?_,
    by simp [IsStream]⟩
  rw [cast, ← name]
  rfl

end Operation

end ApiBinding
