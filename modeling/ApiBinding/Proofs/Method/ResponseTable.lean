import ApiBinding.Proofs.Method.Hints

/-!
The table of responses: how a method hands over its response follows from whether the response is
streamed and whether it is wrapped, and from nothing else.
-/

namespace ApiBinding.Operation

open Identifier (ofRaw)

variable {operation : Operation} {settings : Settings} {method : Method}

/-- Whether one of the references names the operation, by its tag or by its class. -/
def IsListed (operation : Operation) (settings : Settings)
    (references : List MethodReference) : Prop :=
  ∃ reference ∈ references, ∃ raw, operation.rawName = .ok raw ∧
    reference.identifiers.2 = ofRaw .method raw ∧
    (reference.identifiers.1 = settings.clientName operation.tag ∨
      (operation.tag ≠ "" ∧ reference.identifiers.1 = ofRaw .type operation.tag))

/-- Whether the first success with a body is an array that may be read item by item. -/
def AnswersItems (operation : Operation) : Prop :=
  ∃ response element nullable,
    (operation.successes.find? fun response => response.type.isSome) = some response ∧
      response.type = some (.array element nullable true)

def Streams (operation : Operation) (settings : Settings) : Prop :=
  operation.IsListed settings settings.streamedResponses ∧ operation.AnswersItems

def Wraps (operation : Operation) (settings : Settings) : Prop :=
  settings.wrapResponses = true ∧
    (settings.wrappedMethods = [] ∨ operation.IsListed settings settings.wrappedMethods)

theorem mem_clientNames {client : String} : client ∈ operation.clientNames settings ↔
    client = settings.clientName operation.tag ∨
      (operation.tag ≠ "" ∧ client = ofRaw .type operation.tag) := by
  unfold clientNames
  dsimp only
  split
  next single =>
    rcases single with untagged | same
    · simp [untagged]
    · simp [same]
  next several =>
    have tagged : operation.tag ≠ "" := fun h => several (.inl h)
    split <;> simp [tagged, or_comm]

theorem lists_iff {names : Names} (named : operation.names settings = .ok names)
    {references : List MethodReference} :
    MethodReference.lists references names.pairs = true ↔
      operation.IsListed settings references := by
  obtain ⟨raw, hraw, made⟩ := bind_eq_ok.mp named
  cases made
  have pair (reference : MethodReference) :
      reference.identifiers ∈
        (operation.clientNames settings).map (fun client => (client, ofRaw .method raw)) ↔
      reference.identifiers.2 = ofRaw .method raw ∧
        reference.identifiers.1 ∈ operation.clientNames settings := by
    rw [List.mem_map]
    constructor
    · rintro ⟨client, hc, same⟩
      rw [← same]
      exact ⟨rfl, hc⟩
    · rintro ⟨same, hc⟩
      exact ⟨_, hc, by rw [← same]⟩
  simp only [MethodReference.lists, List.any_eq_true, List.contains_iff_mem, pair, mem_clientNames,
    IsListed, hraw, Except.ok.injEq, exists_eq_left']

theorem hasStreamableResponse_iff :
    operation.hasStreamableResponse = true ↔ operation.AnswersItems := by
  have canStream (shape : Shape) :
      shape.canStream = true ↔ ∃ element nullable, shape = .array element nullable true := by
    cases shape <;> simp [Shape.canStream]
  unfold hasStreamableResponse AnswersItems primary?
  cases found : operation.successes.find? fun response => response.type.isSome with
  | some response => cases typed : response.type <;> simp [typed, canStream]
  | none =>
    have empty : ∀ response ∈ operation.successes, response.type = none := by
      simpa using found
    cases first : operation.successes.head? with
    | none => simp
    | some response => simp [empty response (List.mem_of_mem_head? first)]

theorem AnswersItems.successes_ne_nil (h : operation.AnswersItems) : operation.successes ≠ [] := by
  obtain ⟨response, _, _, found, _⟩ := h
  exact List.ne_nil_of_mem (List.mem_of_find?_eq_some found)

theorem streamsResponse_iff {names : Names} (named : operation.names settings = .ok names) :
    operation.streamsResponse settings names = true ↔ operation.Streams settings := by
  rw [streamsResponse, Bool.and_eq_true, lists_iff named, hasStreamableResponse_iff, Streams]

theorem wrapsResponse_iff {names : Names} (named : operation.names settings = .ok names) :
    wrapsResponse settings names = true ↔ operation.Wraps settings := by
  rw [wrapsResponse, Bool.and_eq_true, Bool.or_eq_true, lists_iff named, Wraps, List.isEmpty_iff]

theorem isStreamed_ofFlags (streams wraps : Bool) :
    (ResponseMode.ofFlags streams wraps).isStreamed = streams := by
  cases streams <;> cases wraps <;> rfl

/-- Whether a result is handed over item by item, and never null. -/
def IsStream (result : TypeHint) : Prop := ∃ item, result = .applied .stream [item] false

theorem isStream_of_streams {mode : ResponseMode} {result : TypeHint}
    (streams : operation.AnswersItems) (streamed : mode.isStreamed = true)
    (h : Results operation mode result) : IsStream result := by
  obtain ⟨response, element, nullable, found, typed⟩ := streams
  have primary : operation.primary? = some response := by simp [primary?, found]
  cases h with
  | nothing h => simp [primary, typed] at h
  | items h =>
    obtain rfl := Option.some.inj ((by simpa [primary, typed] using h : some _ = some _))
    exact ⟨_, rfl⟩
  | orNull _ _ whole => simp [streamed] at whole
  | value _ _ whole => simp [streamed] at whole

/-- The support classes of a method that its response relies on. -/
def responseSupport (method : Method) : List SupportClass :=
  method.support.filter fun support => decide (support ≠ .arrayStreamContent)

theorem responseSupport_eq {names : Names} {declared : List Argument} {result : TypeHint}
    {cases : List StatusCase}
    (making : Making operation settings method names declared result cases) :
    responseSupport method = method.responseMode.support := by
  rw [responseSupport, making.support, making.responseMode, List.filter_append]
  have kept : (operation.responseMode settings names).support.filter
      (fun support => decide (support ≠ .arrayStreamContent)) =
        (operation.responseMode settings names).support := by
    cases operation.responseMode settings names <;> decide
  rw [kept]
  split <;> simp

/-- The mode, the type that is returned and the support classes of a method follow from whether its
response is streamed and whether it is wrapped. The cases say what the mode allows for every
success, raise the declared exception for everything else, have different statuses, have one for
success, and may have the default only at their end. -/
theorem response_table (made : operation.toMethod settings = .ok method) :
    ∃ cases result,
      method.steps.getLast? = some (.response method.responseMode cases result) ∧
      (¬operation.Streams settings → ¬operation.Wraps settings →
        method.responseMode = .plain ∧ method.returnType = result ∧
        responseSupport method = [.exception]) ∧
      (¬operation.Streams settings → operation.Wraps settings →
        method.responseMode = .wrapped ∧
        method.returnType = .applied (.generic "ApiResponse") [result] false ∧
        responseSupport method = [.exception, .response]) ∧
      (operation.Streams settings → ¬operation.Wraps settings →
        method.responseMode = .streamed ∧ IsStream result ∧ method.returnType = result ∧
        responseSupport method = [.exception, .arrayStream]) ∧
      (operation.Streams settings → operation.Wraps settings →
        method.responseMode = .streamedWrapped ∧ IsStream result ∧
        method.returnType = .applied (.generic "DisposableApiResponse") [result] false ∧
        responseSupport method = [.exception, .response, .disposableResponse, .arrayStream]) ∧
      (∀ c ∈ cases,
        (c.status.toList.head? = some '2' → method.responseMode.Allows c.action) ∧
        (c.status.toList.head? ≠ some '2' → c.action = .failDeclared)) ∧
      (cases.map StatusCase.status).Nodup ∧
      (∃ c ∈ cases, c.status.toList.head? = some '2') ∧
      ∀ c ∈ cases.dropLast, c.status ≠ "default" := by
  obtain ⟨names, declared, result, cases, making⟩ := toMethod_eq_ok made
  have streams := streamsResponse_iff making.named
  have wraps := wrapsResponse_iff making.named
  have mode : method.responseMode = .ofFlags (operation.streamsResponse settings names)
      (wrapsResponse settings names) := making.responseMode
  have cased := making.cased_by_mode
  have results := making.results
  have returned : method.returnType = returnHint result method.responseMode :=
    making.responseMode ▸ making.returnType
  have support := responseSupport_eq making
  have whole : ¬operation.Streams settings → operation.streamsResponse settings names = false :=
    fun h => by rw [Bool.eq_false_iff, Ne, streams]; exact h
  have bare : ¬operation.Wraps settings → wrapsResponse settings names = false :=
    fun h => by rw [Bool.eq_false_iff, Ne, wraps]; exact h
  refine ⟨cases, result, making.getLast?_steps, ?_, ?_, ?_, ?_, ?_, nodup_statuses cased,
    exists_success cased, default_last cased⟩
  · intro hs hw
    rw [whole hs, bare hw] at mode
    rw [mode] at returned support ⊢
    exact ⟨rfl, returned, support⟩
  · intro hs hw
    rw [whole hs, wraps.mpr hw] at mode
    rw [mode] at returned support ⊢
    exact ⟨rfl, returned, support⟩
  · intro hs hw
    rw [streams.mpr hs, bare hw] at mode
    rw [mode] at returned support results ⊢
    exact ⟨rfl, isStream_of_streams hs.2 rfl results, returned, support⟩
  · intro hs hw
    rw [streams.mpr hs, wraps.mpr hw] at mode
    rw [mode] at returned support results ⊢
    exact ⟨rfl, isStream_of_streams hs.2 rfl results, returned, support⟩
  · apply actions_of_cases cased
    intro streamed
    rw [mode, isStreamed_ofFlags, streams] at streamed
    exact streamed.2.successes_ne_nil

def listing : Operation :=
  answering "Pet" "List" [("200", .array (.primitive .string false) false true)]

def streamedAndWrapped : Settings :=
  { Settings.standard with
    wrapResponses := true, streamedResponses := [{ client := "Pet", method := "List" }] }

theorem response_table_streamed_wrapped :
    ∃ method, listing.toMethod streamedAndWrapped = .ok method ∧
      method.responseMode = .streamedWrapped ∧
      responseSupport method = [.exception, .response, .disposableResponse, .arrayStream] := by
  have streams : listing.Streams streamedAndWrapped := by
    refine ⟨⟨{ client := "Pet", method := "List" }, by simp [streamedAndWrapped], "List", ?_, ?_,
      .inr ⟨?_, ?_⟩⟩, ⟨_, _, _, rfl, rfl⟩⟩
    · rfl
    · decide
    · decide
    · decide
  have wraps : listing.Wraps streamedAndWrapped := ⟨rfl, .inl rfl⟩
  obtain ⟨method, made⟩ : ∃ method, listing.toMethod streamedAndWrapped = .ok method :=
    exists_eq_ok (by decide +kernel)
  obtain ⟨_, _, _, _, _, _, row, _⟩ := response_table made
  obtain ⟨mode, _, _, support⟩ := row streams wraps
  exact ⟨method, made, mode, support⟩

end ApiBinding.Operation
