import ApiBinding.Proofs.Method.Case
import ApiBinding.Proofs.Method.Refusal
import ApiBinding.Proofs.TypeHint

/-!
The hints that a method carries. All are made from the shapes of its operation, so that the names
they mention are those of its declarations.
-/

namespace ApiBinding

open Identifier (ofRaw)
open TypeHint (ofShape ofShape?)
open Declaration (Covered Describes ofShape?_eq_ok)

def Step.hints : Step → List TypeHint
  | .url _ arguments => arguments.map Argument.type
  | .query arguments => arguments.map Argument.type
  | .headers arguments _ _ => arguments.map Argument.type
  | .wholeBody argument _ => [argument.type]
  | .streamedBody argument => [argument.type]
  | .request .. => []
  | .send => []
  | .response _ cases result => cases.filterMap StatusCase.type ++ [result]

/-- The hints that a method carries in its signature and in its body. -/
def Method.hints (method : Method) : List TypeHint :=
  method.arguments.map Argument.type ++ [method.returnType] ++ method.steps.flatMap Step.hints

def Declaration.hints (declaration : Declaration) : List TypeHint :=
  match declaration.body with
  | .record fields => fields.map FieldOf.type
  | .synonym type => [type]
  | .enumeration _ => []

namespace Operation

/-- The hints made from the shapes of an operation. -/
inductive Uses (operation : Operation) : TypeHint → Prop
  | nothing : Uses operation TypeHint.none
  | shape {shape : Shape} (h : shape ∈ operation.shapes) (context : TypeHint.Context) :
      Uses operation (ofShape context shape)
  | withNull {hint : TypeHint} (h : Uses operation hint) (nullable : Bool) :
      Uses operation (hint.withNull nullable)
  | applied {hint : TypeHint} (h : Uses operation hint) (container : Container) :
      Uses operation (.applied container [hint] false)

/-- The type of the result that an operation has under a mode. -/
inductive Results (operation : Operation) (mode : ResponseMode) : TypeHint → Prop
  | nothing (h : operation.primary?.bind Response.type = none) : Results operation mode .none
  | items {shape : Shape} (h : operation.primary?.bind Response.type = some shape)
      (streamed : mode.isStreamed = true) :
      Results operation mode
        ((ofShape { usage := .response, streamsResult := true } shape).withNull false)
  | orNull {primary : Response} {shape : Shape} (h : operation.primary? = some primary)
      (typed : primary.type = some shape) (whole : mode.isStreamed = false)
      (nullable : primary.nullable = true ∨ ∃ other ∈ operation.successes, other.type = none) :
      Results operation mode ((ofShape .response shape).withNull true)
  | value {primary : Response} {shape : Shape} (h : operation.primary? = some primary)
      (typed : primary.type = some shape) (whole : mode.isStreamed = false)
      (present : primary.nullable = false ∧ ∀ other ∈ operation.successes, other.type ≠ none) :
      Results operation mode (ofShape .response shape)

variable {operation : Operation} {settings : Settings} {method : Method}

theorem resultHint_eq_ok {mode : ResponseMode} {result : TypeHint}
    (h : operation.resultHint mode = .ok result) : Results operation mode result := by
  unfold resultHint at h
  split at h
  next absent =>
    cases h
    exact .nothing (by simp [absent])
  next primary hprimary =>
    split at h
    next empty =>
      cases h
      exact .nothing (by simp [hprimary, empty])
    next shape typed =>
      obtain ⟨hint, hhint, made⟩ := bind_eq_ok.mp h
      rw [(ofShape?_eq_ok.mp hhint).2] at made
      split at made
      next streamed =>
        cases made
        rw [streamed]
        exact .items (by simp [hprimary, typed]) streamed
      next whole =>
        have whole : mode.isStreamed = false := by simpa using whole
        rw [whole] at made
        split at made
        next nullable =>
          cases made
          exact .orNull hprimary typed whole (by simpa using nullable)
        next present =>
          cases made
          refine .value hprimary typed whole ?_
          simpa [Option.isSome_iff_ne_none] using present

theorem Making.results {names : Names} {declared : List Argument} {result : TypeHint}
    {cases : List StatusCase}
    (making : Making operation settings method names declared result cases) :
    Results operation method.responseMode result := by
  rw [making.responseMode]
  exact resultHint_eq_ok making.resulted

theorem uses_result {mode : ResponseMode} {result : TypeHint} (h : Results operation mode result) :
    operation.Uses result := by
  have mem {primary : Response} {shape : Shape} (h : operation.primary? = some primary)
      (typed : primary.type = some shape) : shape ∈ operation.shapes :=
    mem_shapes_of_response (mem_responses_of_primary? h).1 typed
  cases h with
  | nothing => exact .nothing
  | items h streamed =>
    obtain ⟨primary, hprimary, typed⟩ := Option.bind_eq_some_iff.mp h
    exact (Uses.shape (mem hprimary typed) _).withNull _
  | orNull h typed => exact (Uses.shape (mem h typed) _).withNull _
  | value h typed => exact .shape (mem h typed) _

theorem uses_return {mode : ResponseMode} {result : TypeHint} (h : operation.Uses result) :
    operation.Uses (returnHint result mode) := by
  cases mode with
  | plain => exact h
  | wrapped => exact h.applied _
  | streamed => exact h
  | streamedWrapped => exact h.applied _

theorem uses_of_gives {mode : ResponseMode} {response : Response} {c : StatusCase}
    (h : response ∈ operation.responses) (gives : Gives mode response c) {hint : TypeHint}
    (typed : c.type = some hint) : operation.Uses hint := by
  have mem {shape : Shape} : response.type = some shape → shape ∈ operation.shapes :=
    mem_shapes_of_response h
  cases gives with
  | nothing => cases typed
  | missing => cases typed
  | items success known =>
    cases typed
    exact (Uses.shape (mem known) _).withNull _
  | bytes success known =>
    cases typed
    exact .shape (mem known) _
  | orNull success known =>
    cases typed
    exact (Uses.shape (mem known) _).withNull _
  | value success known =>
    cases typed
    exact .shape (mem known) _
  | failure =>
    obtain ⟨shape, known, rfl⟩ := Option.map_eq_some_iff.mp typed
    exact .shape (mem known) _

theorem uses_of_cases {mode : ResponseMode} {cases : List StatusCase}
    (h : operation.cases mode = .ok cases) {hint : TypeHint}
    (hh : hint ∈ cases.filterMap StatusCase.type) : operation.Uses hint := by
  obtain ⟨declared, given, rfl⟩ := cases_eq_ok h
  obtain ⟨c, hc, typed⟩ := List.mem_filterMap.mp hh
  rcases mem_cases_iff.mp hc with ⟨_, rfl⟩ | hc
  · cases typed
  obtain ⟨response, hresponse, gives⟩ := exists_of_forall₂ given hc
  exact uses_of_gives ((Entries.distinct_sublist _ _).subset hresponse) gives typed

theorem uses_of_argument {streamsBody : Bool} {parameter : Parameter} {name sentName : String}
    {made : Argument} (h : parameter ∈ operation.parameters)
    (hmade : argument streamsBody parameter name sentName = .ok made) :
    operation.Uses made.type := by
  obtain ⟨hint, hhint, hmade⟩ := bind_eq_ok.mp hmade
  have used : operation.Uses hint := by
    rw [(ofShape?_eq_ok.mp hhint).2]
    exact .shape (mem_shapes_of_parameter h) _
  dsimp only at hmade
  split at hmade
  · cases hmade
    exact used
  · split at hmade
    · cases hmade
      exact used
    · cases hmade
      exact used.withNull true

/-- Every argument is made of one of the parameters, under a name made of the one it is sent by. -/
theorem exists_of_argumentsFrom {scope : NameScope} {streamsBody : Bool} {taken : NameTable}
    {parameters : List Parameter} {arguments : List Argument}
    (made : argumentsFrom scope streamsBody taken parameters = .ok arguments) :
    ∀ given ∈ arguments, ∃ parameter ∈ parameters, ∃ sentName,
      argument streamsBody parameter (ofRaw .parameter sentName) sentName = .ok given := by
  induction parameters generalizing taken arguments with
  | nil =>
    cases made
    simp
  | cons parameter rest ih =>
    obtain ⟨sentName, _, made⟩ := bind_eq_ok.mp made
    dsimp only at made
    split at made
    · cases made
    · obtain ⟨first, hfirst, made⟩ := bind_eq_ok.mp made
      obtain ⟨others, hothers, made⟩ := bind_eq_ok.mp made
      cases made
      intro given hg
      rcases List.mem_cons.mp hg with rfl | hg
      · exact ⟨parameter, List.mem_cons_self, sentName, hfirst⟩
      · obtain ⟨other, ho, sentName, hother⟩ := ih hothers given hg
        exact ⟨other, List.mem_cons_of_mem _ ho, sentName, hother⟩

theorem mem_argumentsIn {location : Location} {arguments : List Argument} {argument : Argument}
    (h : argument ∈ argumentsIn location arguments) : argument ∈ arguments :=
  (List.mem_filter.mp h).1

theorem mem_requiredFirst {arguments : List Argument} {argument : Argument} :
    argument ∈ requiredFirst arguments ↔ argument ∈ arguments := by
  cases h : argument.required <;> simp [requiredFirst, h]

/-- What holds of every step that a method can be made with holds of its steps. -/
theorem Making.forall_steps {names : Names} {declared : List Argument} {result : TypeHint}
    {cases : List StatusCase} {motive : Step → Prop}
    (making : Making operation settings method names declared result cases)
    (url : motive (.url operation.path (argumentsIn .path method.arguments)))
    (query : motive (.query (argumentsIn .query method.arguments)))
    (headers : motive (.headers (argumentsIn .header method.arguments) operation.accept
      (contentType operation.body?)))
    (wholeBody : ∀ argument ∈ method.arguments, ∀ format, motive (.wholeBody argument format))
    (streamedBody : method.requestMode = .streamed →
      ∀ argument ∈ method.arguments, motive (.streamedBody argument))
    (request : ∀ httpMethod viaFactory hasQuery hasContent,
      motive (.request httpMethod viaFactory hasQuery hasContent))
    (send : motive .send)
    (response : motive (.response (operation.responseMode settings names) cases result)) :
    ∀ step ∈ method.steps, motive step := by
  have body : ∀ step ∈ (operation.sentBody settings names declared).2, motive step := by
    intro step hstep
    unfold sentBody bodyPart at hstep
    split at hstep
    next parameter argument hparameter hbody =>
      have ha : argument ∈ method.arguments := by
        rw [making.arguments]
        exact mem_argumentsIn (List.mem_of_mem_head? (by simpa using hbody))
      split at hstep
      next streams =>
        obtain rfl : step = _ := by simpa using hstep
        have mode : method.requestMode = .streamed := by
          rw [making.requestMode]
          simp only [sentBody, bodyPart, hparameter, hbody, streams, if_true]
        exact streamedBody mode argument ha
      next =>
        obtain rfl : step = _ := by simpa using hstep
        exact wholeBody argument ha _
    next => cases hstep
  intro step hstep
  rw [making.steps] at hstep
  simp only [List.mem_append, List.mem_cons, List.not_mem_nil, or_false, or_assoc] at hstep
  rcases hstep with rfl | hstep | rfl | hstep | rfl | rfl | rfl
  · exact url
  · split at hstep
    · cases hstep
    · obtain rfl : step = _ := by simpa using hstep
      exact query
  · exact headers
  · exact body step hstep
  · exact request ..
  · exact send
  · exact response

/-- Every hint of a method is made from the shapes of its operation. -/
theorem uses_of_mem_hints (made : operation.toMethod settings = .ok method) {hint : TypeHint}
    (h : hint ∈ method.hints) : operation.Uses hint := by
  obtain ⟨names, declared, result, cases, making⟩ := toMethod_eq_ok made
  have arguments : ∀ argument ∈ method.arguments, operation.Uses argument.type := by
    intro argument ha
    rw [making.arguments, mem_requiredFirst] at ha
    obtain ⟨parameter, hparameter, _, hmade⟩ := exists_of_argumentsFrom making.argued argument ha
    exact uses_of_argument (mem_of_mem_usedParameters hparameter) hmade
  have located (location : Location) :
      ∀ hint ∈ (argumentsIn location method.arguments).map Argument.type, operation.Uses hint := by
    intro hint h
    obtain ⟨argument, ha, rfl⟩ := List.mem_map.mp h
    exact arguments argument (mem_argumentsIn ha)
  have result_used := uses_result (resultHint_eq_ok making.resulted)
  have steps : ∀ step ∈ method.steps, ∀ hint ∈ step.hints, operation.Uses hint := by
    refine making.forall_steps (located .path) (located .query) (located .header) ?_ ?_ ?_ ?_ ?_
    · simpa [Step.hints] using fun argument ha _ => arguments argument ha
    · simpa [Step.hints] using fun _ argument ha => arguments argument ha
    · simp [Step.hints]
    · simp [Step.hints]
    · intro hint h
      rcases List.mem_append.mp h with h | h
      · exact uses_of_cases making.cased h
      · obtain rfl : hint = result := by simpa using h
        exact result_used
  rcases List.mem_append.mp h with h | h
  · rcases List.mem_append.mp h with h | h
    · obtain ⟨argument, ha, rfl⟩ := List.mem_map.mp h
      exact arguments argument ha
    · obtain rfl : hint = method.returnType := by simpa using h
      rw [making.returnType]
      exact uses_return result_used
  · obtain ⟨step, hstep, h⟩ := List.mem_flatMap.mp h
    exact steps step hstep hint h

end Operation

namespace Declaration.Covered

variable {all : Shape → Prop} {met : List Shape} {found : List Declaration}

theorem spelled (covered : Covered all met [] found) {shape : Shape} (hs : shape ∈ met)
    {context : TypeHint.Context} :
    ∀ name ∈ (ofShape context shape).modelNames, name ∈ found.map Declaration.name := by
  intro name hname
  have inside : ∀ shape ∈ met, shape.declaredName? = none → ∀ part ∈ shape.parts, part ∈ met :=
    fun shape hs hn part hp => by simpa using covered.unnamed shape hs hn part hp
  obtain ⟨part, source, hpart, named, rfl⟩ := TypeHint.mem_modelNames_ofShape inside hs hname
  obtain ⟨d, hd, hdn, _⟩ := covered.declared part hpart source named
  exact hdn ▸ List.mem_map_of_mem hd

theorem hints (covered : Covered all met [] found) {d : Declaration} (hd : d ∈ found)
    {hint : TypeHint} (h : hint ∈ d.hints) :
    ∀ name ∈ hint.modelNames, name ∈ found.map Declaration.name := by
  obtain ⟨shape, hshape, named, _, describes, parts⟩ := covered.origin d hd
  rw [Shape.parts_of_declaredName? named] at parts
  have inside {part : Shape}
      (hp : part ∈ shape.fields.map FieldOf.type ++ shape.additional.toList) : part ∈ met := by
    simpa using parts part hp
  obtain ⟨name, source, body⟩ := d
  cases describes with
  | enumeration => cases h
  | synonym empty =>
    obtain rfl : hint = _ := by simpa [Declaration.hints] using h
    cases additional : shape.additional with
    | none => simp
    | some value =>
      have hvalue : value ∈ met := inside (by simp [additional])
      simpa using covered.spelled hvalue
  | record listed =>
    obtain ⟨field, hfield, rfl⟩ : ∃ field ∈ shape.fields, ofShape .response field.type = hint := by
      simpa [Declaration.hints, recordFields] using h
    exact covered.spelled (inside (List.mem_append_left _ (List.mem_map_of_mem hfield)))

end Declaration.Covered

theorem Operation.Uses.spelled {operation : Operation} {hint : TypeHint}
    (used : operation.Uses hint) :
    ∀ members ∈ hint.literals, TypeHint.SpelledAmong operation.Reaches members := by
  induction used with
  | nothing => simp
  | shape h context =>
    intro members hm
    exact (TypeHint.spelled_of_mem_literals hm).imp fun _ reached => ⟨_, h, reached⟩
  | withNull _ _ ih => simpa using ih
  | applied _ _ ih => simpa using ih

/-- The hints of a declaration spell out enumerations that the shape of its name reaches. -/
theorem Declaration.Describes.spelled {shape : Shape} {d : Declaration} {source : String}
    (describes : Describes shape d.body) (named : shape.declaredName? = some source)
    {hint : TypeHint} (h : hint ∈ d.hints) :
    ∀ members ∈ hint.literals, TypeHint.SpelledAmong shape.Reaches members := by
  have inside {part : Shape}
      (hp : part ∈ shape.fields.map FieldOf.type ++ shape.additional.toList) :
      ∀ members ∈ (ofShape .response part).literals,
        TypeHint.SpelledAmong shape.Reaches members := by
    intro members hm
    rw [← Shape.parts_of_declaredName? named] at hp
    exact (TypeHint.spelled_of_mem_literals hm).imp fun _ reached => reached.head hp
  obtain ⟨name, source, body⟩ := d
  cases describes with
  | enumeration => cases h
  | synonym empty =>
    obtain rfl : hint = _ := by simpa [Declaration.hints] using h
    cases additional : shape.additional with
    | none => simp
    | some value => simpa using inside (by simp [additional])
  | record listed =>
    obtain ⟨field, hfield, rfl⟩ : ∃ field ∈ shape.fields, ofShape .response field.type = hint := by
      simpa [Declaration.hints, recordFields] using h
    exact inside (List.mem_append_left _ (List.mem_map_of_mem hfield))

theorem Operation.Uses.declared {operation : Operation} {all : Shape → Prop} {met : List Shape}
    {found : List Declaration} (covered : Covered all met [] found)
    (roots : ∀ shape ∈ operation.shapes, shape ∈ met) {hint : TypeHint}
    (used : operation.Uses hint) :
    ∀ name ∈ hint.modelNames, name ∈ found.map Declaration.name := by
  induction used with
  | nothing => simp
  | shape h context => exact covered.spelled (roots _ h)
  | withNull _ _ ih => simpa using ih
  | applied _ _ ih => simpa using ih

end ApiBinding
