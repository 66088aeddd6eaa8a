import ApiBinding.Proofs.Method.ResponseTable
import ApiBinding.Proofs.Method.Signature

/-!
What requests are made of: the steps that a method takes in their order, which arguments go into
which of them, and when the body is produced item by item.
-/

namespace ApiBinding

open TypeHint (ofShape)

/-- The arguments that a step is given. -/
def Step.arguments : Step → List Argument
  | .url _ arguments => arguments
  | .query arguments => arguments
  | .headers arguments _ _ => arguments
  | .wholeBody argument _ => [argument]
  | .streamedBody argument => [argument]
  | .request .. => []
  | .send => []
  | .response .. => []

/-- Whether requests have a place for what is sent so. -/
def Location.hasPlace : Location → Bool
  | .other _ => false
  | _ => true

/-- Where the hint of a parameter stands. -/
def Parameter.context (parameter : Parameter) (streamsBody : Bool) : TypeHint.Context :=
  if parameter.location = .body then { usage := .body, streamsBody } else { usage := .parameter }

namespace Operation

/-- Whether the operation is listed for request streaming and its first body is an array that may be
sent item by item. -/
def SendsItems (operation : Operation) (settings : Settings) : Prop :=
  operation.IsListed settings settings.streamedRequests ∧
    ∃ body element nullable,
      (operation.parameters.find? fun parameter => decide (parameter.location = .body)) =
        some body ∧ body.type = .array element nullable true

section

variable {operation : Operation} {settings : Settings} {method : Method} {streamsBody : Bool}
  {parameter : Parameter} {parameters : List Parameter} {given : Argument}
  {arguments : List Argument} {scope : NameScope} {taken : NameTable}

theorem streamsRequest_iff {names : Names} (named : operation.names settings = .ok names) :
    operation.streamsRequest settings names = true ↔ operation.SendsItems settings := by
  have canStream (shape : Shape) :
      shape.canStream = true ↔ ∃ element nullable, shape = .array element nullable true := by
    cases shape <;> simp [Shape.canStream]
  rw [streamsRequest, Bool.and_eq_true, lists_iff named, SendsItems, hasStreamableBody, body?]
  cases operation.parameters.find? fun parameter => decide (parameter.location = .body) with
  | none => simp
  | some body => simp [canStream]

/-- Whether an argument is made for a parameter, with the hint of its shape. -/
structure MadeFor (streamsBody : Bool) (parameter : Parameter) (argument : Argument) : Prop
    extends StandsFor parameter argument where
  type : argument.type = if argument.isOmittable
    then (ofShape (parameter.context streamsBody) parameter.type).withNull true
    else ofShape (parameter.context streamsBody) parameter.type

theorem madeFor_of_argument {sentName : String} (named : parameter.name = .text sentName)
    (made : argument streamsBody parameter (Identifier.ofRaw .parameter sentName) sentName =
      .ok given) : MadeFor streamsBody parameter given := by
  have stands := standsFor_of_argument named made
  refine ⟨stands, ?_⟩
  obtain ⟨hint, hinted, made⟩ := bind_eq_ok.mp made
  have hinted : hint = ofShape (parameter.context streamsBody) parameter.type :=
    (Declaration.ofShape?_eq_ok.mp hinted).2
  dsimp only at made
  split at made
  next =>
    cases made
    exact hinted
  next =>
    split at made
    next literal written =>
      cases made
      have other : literal ≠ "None" := literalDefault?_ne written
      simpa [Argument.isOmittable, other] using hinted
    next =>
      cases made
      simpa [Argument.isOmittable] using congrArg (TypeHint.withNull true) hinted

theorem madeFor_of_argumentsFrom
    (made : argumentsFrom scope streamsBody taken parameters = .ok arguments) :
    List.Forall₂ (MadeFor streamsBody) parameters arguments := by
  induction parameters generalizing taken arguments with
  | nil =>
    cases made
    exact .nil
  | cons parameter rest ih =>
    obtain ⟨sentName, named, made⟩ := bind_eq_ok.mp made
    dsimp only at made
    split at made
    · cases made
    · obtain ⟨first, hfirst, made⟩ := bind_eq_ok.mp made
      obtain ⟨others, hothers, made⟩ := bind_eq_ok.mp made
      cases made
      exact .cons (madeFor_of_argument (eq_text_of_asText named) hfirst) (ih hothers)

theorem mem_argumentsIn_iff {location : Location} :
    given ∈ argumentsIn location arguments ↔ given ∈ arguments ∧ given.location = location := by
  simp [argumentsIn]

/-- Each argument that requests have a place for is in exactly one of their places. -/
theorem argumentsIn_perm (arguments : List Argument) :
    (argumentsIn .path arguments ++ argumentsIn .query arguments ++
      argumentsIn .header arguments ++ argumentsIn .body arguments).Perm
        (arguments.filter fun given => given.location.hasPlace) := by
  induction arguments with
  | nil => exact .nil
  | cons given others ih =>
    have onward (front back : List Argument) :
        (front ++ given :: back).Perm (given :: (front ++ back)) := List.perm_middle
    have kept (placed : given.location.hasPlace = true) :
        (given :: (argumentsIn .path others ++ argumentsIn .query others ++
          argumentsIn .header others ++ argumentsIn .body others)).Perm
            ((given :: others).filter fun given => given.location.hasPlace) := by
      rw [List.filter_cons, if_pos placed]
      exact ih.cons given
    cases location : given.location with
    | path =>
      refine .trans ?_ (kept (by rw [location]; rfl))
      simp [argumentsIn, location]
    | query =>
      refine .trans ?_ (kept (by rw [location]; rfl))
      simp [argumentsIn, location]
    | header =>
      refine .trans ?_ (kept (by rw [location]; rfl))
      simpa [argumentsIn, location] using onward
        (argumentsIn .path others ++ argumentsIn .query others)
        (argumentsIn .header others ++ argumentsIn .body others)
    | body =>
      refine .trans ?_ (kept (by rw [location]; rfl))
      simpa [argumentsIn, location] using onward
        (argumentsIn .path others ++ argumentsIn .query others ++ argumentsIn .header others)
        (argumentsIn .body others)
    | other name =>
      have unplaced : given.location.hasPlace = false := by rw [location]; rfl
      rw [List.filter_cons, if_neg (by simp [unplaced])]
      simpa [argumentsIn, location] using ih

theorem mem_usedParameters_of_ne {body : Bool} (member : parameter ∈ parameters)
    (unsent : parameter.location ≠ .body) : parameter ∈ usedParameters body parameters := by
  induction parameters generalizing body with
  | nil => cases member
  | cons first rest ih =>
    unfold usedParameters
    rcases List.mem_cons.mp member with rfl | member
    · simp [unsent]
    · split
      · split
        · exact ih member
        · exact List.mem_cons_of_mem _ (ih member)
      · exact List.mem_cons_of_mem _ (ih member)

/-- Of the parameters that become arguments, only the first body is a body. -/
theorem filter_usedParameters (parameters : List Parameter) :
    (usedParameters false parameters).filter
        (fun parameter => decide (parameter.location = .body)) =
      (parameters.find? fun parameter => decide (parameter.location = .body)).toList := by
  induction parameters with
  | nil => rfl
  | cons parameter rest ih =>
    by_cases body : parameter.location = .body
    · have others : (usedParameters true rest).filter
          (fun parameter => decide (parameter.location = .body)) = [] := by
        simp [usedParameters_true]
      simp [usedParameters, body, others]
    · simpa [usedParameters, body] using ih

end

section

variable {operation : Operation} {settings : Settings} {method : Method} {names : Names}
  {declared : List Argument} {result : TypeHint} {cases : List StatusCase}

theorem mem_of_body? {body : Parameter} (found : operation.body? = some body) :
    body ∈ operation.parameters ∧ body.location = .body :=
  ⟨List.mem_of_find?_eq_some found, by simpa using List.find?_some found⟩

theorem argumentsIn_requiredFirst_perm (location : Location) (arguments : List Argument) :
    (argumentsIn location (requiredFirst arguments)).Perm (argumentsIn location arguments) :=
  (requiredFirst_perm arguments).filter _

theorem forall₂_body (making : Making operation settings method names declared result cases) :
    List.Forall₂ (MadeFor (operation.streamsRequest settings names)) operation.body?.toList
      (argumentsIn .body method.arguments) := by
  have made := madeFor_of_argumentsFrom making.argued
  have kept : List.Forall₂ (MadeFor (operation.streamsRequest settings names))
      operation.body?.toList (argumentsIn .body declared) := by
    rw [body?, ← filter_usedParameters]
    exact List.rel_filter (fun parameter given h => by simp [h.location]) made
  have same : (argumentsIn .body method.arguments).Perm (argumentsIn .body declared) :=
    making.arguments ▸ argumentsIn_requiredFirst_perm .body declared
  cases body : operation.body? with
  | none =>
    rw [body, Option.toList_none, List.forall₂_nil_left_iff] at kept
    rw [kept, List.perm_nil] at same
    rw [same]
    exact .nil
  | some parameter =>
    rw [body, Option.toList_some, List.forall₂_cons_left_iff] at kept
    obtain ⟨given, others, made, none, kept⟩ := kept
    rw [kept, List.forall₂_nil_left_iff.mp none, List.perm_singleton] at same
    rw [same]
    exact .cons made .nil

theorem sentBody_cases (making : Making operation settings method names declared result cases) :
    (operation.body? = none ∧ operation.sentBody settings names declared = (.none, [])) ∨
      ∃ body given, operation.body? = some body ∧ argumentsIn .body method.arguments = [given] ∧
        MadeFor (operation.streamsRequest settings names) body given ∧
        operation.sentBody settings names declared =
          if operation.streamsRequest settings names then (.streamed, [.streamedBody given])
          else (.buffered, [.wholeBody given (bodyFormat body.type)]) := by
  have made := forall₂_body making
  unfold sentBody bodyPart
  rw [← making.arguments]
  cases found : operation.body? with
  | none => simp
  | some body =>
    rw [found, Option.toList_some, List.forall₂_cons_left_iff] at made
    obtain ⟨given, others, made, none, here⟩ := made
    rw [List.forall₂_nil_left_iff.mp none] at here
    exact .inr ⟨body, given, rfl, here, made, by simp [here]⟩

/-- Each argument that requests have a place for is in one step. -/
theorem arguments_steps_perm
    (making : Making operation settings method names declared result cases) :
    (method.steps.flatMap Step.arguments).Perm
      (method.arguments.filter fun given => given.location.hasPlace) := by
  refine .trans (.of_eq ?_) (argumentsIn_perm method.arguments)
  have query : (if (argumentsIn .query method.arguments).isEmpty then ([] : List Step)
      else [.query (argumentsIn .query method.arguments)]).flatMap Step.arguments =
        argumentsIn .query method.arguments := by
    split
    next none => simp [List.isEmpty_iff.mp none]
    next => simp [Step.arguments]
  have body : (operation.sentBody settings names declared).2.flatMap Step.arguments =
      argumentsIn .body method.arguments := by
    obtain ⟨absent, sent⟩ | ⟨body, given, found, here, _, sent⟩ := sentBody_cases making
    · have none := forall₂_body making
      rw [absent, Option.toList_none, List.forall₂_nil_left_iff] at none
      simp [sent, none]
    · rw [sent, here]
      split
      · rfl
      · rfl
  simp only [making.steps, List.flatMap_append, query, body]
  simp [Step.arguments]

/-- Whether one of the steps is given the argument, among arguments of other names, and no other
step an argument of its name. -/
def IsGivenOnce (given : Argument) (steps : List Step) : Prop :=
  ∃ before step after, steps = before ++ step :: after ∧ given ∈ step.arguments ∧
    (step.arguments.map Argument.name).Nodup ∧
    ∀ other ∈ before ++ after, given.name ∉ other.arguments.map Argument.name

theorem isGivenOnce_of_perm {steps : List Step} {arguments : List Argument}
    (perm : (steps.flatMap Step.arguments).Perm arguments)
    (distinct : (arguments.map Argument.name).Nodup) {given : Argument}
    (member : given ∈ arguments) : IsGivenOnce given steps := by
  obtain ⟨step, inside, here⟩ := List.mem_flatMap.mp (perm.mem_iff.mpr member)
  obtain ⟨before, after, rfl⟩ := List.append_of_mem inside
  rw [← (perm.map Argument.name).nodup_iff] at distinct
  -- With the step in front, all names of the others stand behind its own.
  have apart : ((step :: (before ++ after)).flatMap Step.arguments).map Argument.name |>.Nodup :=
    ((List.perm_middle.flatMap_right _).map _).nodup_iff.mp distinct
  rw [List.flatMap_cons, List.map_append, List.nodup_append] at apart
  refine ⟨before, step, after, rfl, here, apart.1, fun other elsewhere shared => ?_⟩
  obtain ⟨second, inside, same⟩ := List.mem_map.mp shared
  have others : given.name ∈ ((before ++ after).flatMap Step.arguments).map Argument.name :=
    List.mem_map.mpr ⟨second, List.mem_flatMap.mpr ⟨other, elsewhere, inside⟩, same⟩
  exact apart.2.2 _ (List.mem_map_of_mem here) _ others rfl

theorem isGivenOnce (making : Making operation settings method names declared result cases)
    {given : Argument} (member : given ∈ method.arguments)
    (placed : given.location.hasPlace = true) : IsGivenOnce given method.steps := by
  have distinct : (method.arguments.map Argument.name).Nodup := by
    rw [making.arguments, ((requiredFirst_perm declared).map _).nodup_iff]
    exact (argumentsFrom_eq_ok making.argued).2.1
  exact isGivenOnce_of_perm (arguments_steps_perm making)
    (distinct.sublist (List.filter_sublist.map _)) (List.mem_filter.mpr ⟨member, placed⟩)

/-- The part of the steps that collects the query. -/
inductive CollectsQuery (operation : Operation) (method : Method) : List Step → Prop
  | nothing (absent : ∀ parameter ∈ operation.parameters, parameter.location ≠ .query) :
      CollectsQuery operation method []
  | all (present : ∃ parameter ∈ operation.parameters, parameter.location = .query) :
      CollectsQuery operation method [.query (argumentsIn .query method.arguments)]

/-- The part of the steps that makes the body, for the first parameter that is one. -/
inductive MakesBody (operation : Operation) (settings : Settings) (method : Method) :
    List Step → Prop
  | nothing (absent : ∀ parameter ∈ operation.parameters, parameter.location ≠ .body)
      (mode : method.requestMode = .none) : MakesBody operation settings method []
  | whole {body : Parameter} {given : Argument} (found : operation.body? = some body)
      (member : given ∈ method.arguments) (made : MadeFor false body given)
      (unlisted : ¬operation.SendsItems settings) (mode : method.requestMode = .buffered) :
      MakesBody operation settings method [.wholeBody given (bodyFormat body.type)]
  | items {body : Parameter} {given : Argument} {item : TypeHint} {nullable : Bool}
      (found : operation.body? = some body) (member : given ∈ method.arguments)
      (made : MadeFor true body given) (type : given.type = .applied .producer [item] nullable)
      (listed : operation.SendsItems settings) (mode : method.requestMode = .streamed) :
      MakesBody operation settings method [.streamedBody given]

/-- What holds of the steps of a method: their order, that each argument goes into one of them, and
when items are produced one by one. -/
structure RequestOf (operation : Operation) (settings : Settings) (method : Method) : Prop where
  order : ∃ query body cases result,
    CollectsQuery operation method query ∧ MakesBody operation settings method body ∧
    method.steps = [.url operation.path (argumentsIn .path method.arguments)] ++ query ++
      [.headers (argumentsIn .header method.arguments) operation.accept
        (contentType operation.body?)] ++ body ++
      [.request (Text.upper operation.method) settings.useRequestFactory (!query.isEmpty)
        (!body.isEmpty), .send, .response method.responseMode cases result]
  given : ∀ argument ∈ method.arguments,
    (∃ parameter ∈ operation.parameters, StandsFor parameter argument) ∧
      (argument.location.hasPlace = true → IsGivenOnce argument method.steps)
  producer : (∃ argument ∈ method.arguments, .producer ∈ argument.type.containers) ↔
    operation.SendsItems settings
  support : .arrayStreamContent ∈ method.support ↔ operation.SendsItems settings

theorem collectsQuery (making : Making operation settings method names declared result cases) :
    CollectsQuery operation method (if (argumentsIn .query method.arguments).isEmpty then []
      else [.query (argumentsIn .query method.arguments)]) := by
  have stands := (argumentsFrom_eq_ok making.argued).1
  have arguments {given : Argument} : given ∈ method.arguments ↔ given ∈ declared := by
    rw [making.arguments, mem_requiredFirst]
  split
  next none =>
    refine .nothing fun parameter member query => ?_
    have used : parameter ∈ usedParameters false operation.parameters :=
      mem_usedParameters_of_ne member (by simp [query])
    obtain ⟨given, made, stand⟩ := exists_of_forall₂ stands.flip used
    have here : given ∈ argumentsIn .query method.arguments :=
      mem_argumentsIn_iff.mpr ⟨arguments.mpr made, stand.location.trans query⟩
    rw [List.isEmpty_iff.mp none] at here
    cases here
  next some =>
    obtain ⟨given, here⟩ := List.exists_mem_of_ne_nil _ (by simpa using some)
    obtain ⟨member, query⟩ := mem_argumentsIn_iff.mp here
    obtain ⟨parameter, used, stand⟩ := exists_of_forall₂ stands (arguments.mp member)
    exact .all ⟨parameter, mem_of_mem_usedParameters used, stand.location.symm.trans query⟩

theorem makesBody (making : Making operation settings method names declared result cases) :
    MakesBody operation settings method (operation.sentBody settings names declared).2 := by
  have listed := streamsRequest_iff making.named
  have mode := making.requestMode
  obtain ⟨absent, sent⟩ | ⟨body, given, found, here, made, sent⟩ := sentBody_cases making
  · rw [sent] at mode ⊢
    exact .nothing (by simpa [body?] using absent) mode
  · have member : given ∈ method.arguments := mem_argumentsIn (here ▸ List.mem_singleton_self given)
    cases streams : operation.streamsRequest settings names with
    | false =>
      simp only [streams, Bool.false_eq_true, if_false] at sent
      rw [sent] at mode ⊢
      exact .whole found member (streams ▸ made) (by simpa [streams] using listed.symm) mode
    | true =>
      simp only [streams, if_true] at sent
      rw [sent] at mode ⊢
      have sends : operation.SendsItems settings := listed.mp streams
      obtain ⟨first, element, nullable, first_found, array⟩ := sends.2
      obtain rfl : body = first := Option.some.inj (found.symm.trans first_found)
      have hint := made.type
      rw [array, Parameter.context, if_pos (mem_of_body? found).2, streams] at hint
      obtain ⟨nullable, type⟩ : ∃ nullable, given.type = .applied .producer
          [ofShape { usage := .body } element] nullable := by
        rw [hint]
        split
        · exact ⟨true, rfl⟩
        · exact ⟨nullable, rfl⟩
      exact .items found member (streams ▸ made) type sends mode

/-- Only a body that is sent item by item has a producer of items in its hint. -/
theorem MadeFor.producer_iff {streamsBody : Bool} {parameter : Parameter} {given : Argument}
    (made : MadeFor streamsBody parameter given) : .producer ∈ given.type.containers ↔
      parameter.location = .body ∧ streamsBody = true ∧ parameter.type.canStream = true := by
  have same : given.type.containers =
      (ofShape (parameter.context streamsBody) parameter.type).containers := by
    rw [made.type]
    split <;> simp
  rw [same, TypeHint.producer_mem_containers, Parameter.context]
  split
  next body => simp [body]
  next other => simp [other]

theorem MakesBody.streamed_iff {steps : List Step}
    (makes : MakesBody operation settings method steps) :
    method.requestMode = .streamed ↔ operation.SendsItems settings := by
  cases makes with
  | nothing absent mode =>
    refine ⟨fun streamed => by simp [mode] at streamed, fun sends => ?_⟩
    obtain ⟨_, body, _, _, found, _⟩ := sends
    obtain ⟨member, location⟩ := mem_of_body? found
    exact absurd location (absent body member)
  | whole _ _ _ unlisted mode => simp [mode, unlisted]
  | items _ _ _ _ listed mode => simp [mode, listed]

theorem MakesBody.exists_producer {steps : List Step}
    (makes : MakesBody operation settings method steps) (sends : operation.SendsItems settings) :
    ∃ given ∈ method.arguments, .producer ∈ given.type.containers := by
  have streamed := makes.streamed_iff.mpr sends
  cases makes with
  | nothing _ mode => simp [mode] at streamed
  | whole _ _ _ unlisted => exact absurd sends unlisted
  | items _ member _ type => exact ⟨_, member, by simp [type]⟩

theorem order_steps (making : Making operation settings method names declared result cases) :
    ∃ query body cases result,
      CollectsQuery operation method query ∧ MakesBody operation settings method body ∧
      method.steps = [.url operation.path (argumentsIn .path method.arguments)] ++ query ++
        [.headers (argumentsIn .header method.arguments) operation.accept
          (contentType operation.body?)] ++ body ++
        [.request (Text.upper operation.method) settings.useRequestFactory (!query.isEmpty)
          (!body.isEmpty), .send, .response method.responseMode cases result] := by
  refine ⟨_, _, cases, result, collectsQuery making, makesBody making, ?_⟩
  have query : (if (argumentsIn .query method.arguments).isEmpty then ([] : List Step)
      else [.query (argumentsIn .query method.arguments)]).isEmpty =
        (argumentsIn .query method.arguments).isEmpty := by
    split
    next none => simp [none]
    next some => simpa using some
  have content : (!(operation.sentBody settings names declared).2.isEmpty) =
      (argumentsIn .body method.arguments).head?.isSome := by
    obtain ⟨absent, sent⟩ | ⟨body, given, _, here, _, sent⟩ := sentBody_cases making
    · have none := forall₂_body making
      rw [absent, Option.toList_none, List.forall₂_nil_left_iff] at none
      simp [sent, none]
    · rw [sent, here]
      split
      · rfl
      · rfl
  rw [query, content, making.responseMode]
  exact making.steps

theorem exists_madeFor (making : Making operation settings method names declared result cases)
    {given : Argument} (member : given ∈ method.arguments) :
    ∃ parameter ∈ operation.parameters,
      MadeFor (operation.streamsRequest settings names) parameter given := by
  rw [making.arguments, mem_requiredFirst] at member
  obtain ⟨parameter, used, made⟩ :=
    exists_of_forall₂ (madeFor_of_argumentsFrom making.argued) member
  exact ⟨parameter, mem_of_mem_usedParameters used, made⟩

theorem requestOf (made : operation.toMethod settings = .ok method) :
    RequestOf operation settings method := by
  obtain ⟨names, declared, result, cases, making⟩ := toMethod_eq_ok made
  have body := makesBody making
  refine ⟨order_steps making, fun given member => ?_, ⟨?_, body.exists_producer⟩, ?_⟩
  · obtain ⟨parameter, inside, made⟩ := exists_madeFor making member
    exact ⟨⟨parameter, inside, made.toStandsFor⟩, isGivenOnce making member⟩
  · rintro ⟨given, member, producer⟩
    obtain ⟨parameter, _, made⟩ := exists_madeFor making member
    exact (streamsRequest_iff making.named).mp (made.producer_iff.mp producer).2.1
  · have response : SupportClass.arrayStreamContent ∉
        (operation.responseMode settings names).support := by
      cases operation.responseMode settings names <;> decide
    rw [making.support, ← body.streamed_iff]
    by_cases streamed : method.requestMode = .streamed
    · simp [streamed]
    · simp [streamed, response]

end

/-- Requests take their steps in one order; each argument goes into one of them, and items are
produced one by one exactly where the operation is listed for it and can. -/
theorem toMethod_request {operation : Operation} {settings : Settings} {method : Method}
    (placed : ∀ parameter ∈ operation.parameters, parameter.location.hasPlace = true)
    (made : operation.toMethod settings = .ok method) :
    RequestOf operation settings method ∧
      ∀ given ∈ method.arguments, IsGivenOnce given method.steps := by
  have request := requestOf made
  refine ⟨request, fun given member => ?_⟩
  obtain ⟨⟨parameter, inside, stands⟩, once⟩ := request.given given member
  exact once (stands.location ▸ placed parameter inside)

/-- An operation with two bodies, the first of which is an array that can be sent item by item. -/
def importing : Operation where
  tag := "Pet"
  name := .text "Import"
  method := "post"
  path := "/shops/\x7bid\x7d/pets"
  parameters := [
    { name := .text "limit", location := .query, type := .primitive .integer false },
    { name := .text "pets", location := .body, required := true,
      type := .array (.array (.primitive .string false) false true) true true },
    { name := .text "id", location := .path, type := .primitive .string false },
    { name := .text "more", location := .body, type := .primitive .string false },
    { name := .text "X-Trace", location := .header, type := .primitive .string false }]
  responses := [{ status := "204" }]

def importingItems : Settings :=
  { Settings.standard with streamedRequests := [{ client := "Pet", method := "Import" }] }

theorem toMethod_request_importing :
    (∀ parameter ∈ importing.parameters, parameter.location.hasPlace = true) ∧
      ∃ method, importing.toMethod importingItems = .ok method ∧
        RequestOf importing importingItems method ∧
        (∀ given ∈ method.arguments, IsGivenOnce given method.steps) ∧
        method.steps.map (fun step => step.arguments.map Argument.name) =
          [["id"], ["limit"], ["x_trace"], ["pets"], [], [], []] ∧
        .arrayStreamContent ∈ method.support := by
  have placed : ∀ parameter ∈ importing.parameters, parameter.location.hasPlace = true := by decide
  obtain ⟨method, made⟩ : ∃ method, importing.toMethod importingItems = .ok method :=
    exists_eq_ok (by decide +kernel)
  have seen : (importing.toMethod importingItems).toOption.map (fun method =>
      method.steps.map fun step => step.arguments.map Argument.name) =
        some [["id"], ["limit"], ["x_trace"], ["pets"], [], [], []] := by
    decide +kernel
  rw [made] at seen
  have sends : importing.SendsItems importingItems :=
    ⟨⟨{ client := "Pet", method := "Import" }, by simp [importingItems], "Import", rfl, by decide,
      .inr (by decide)⟩, _, _, _, rfl, rfl⟩
  obtain ⟨request, once⟩ := toMethod_request placed made
  exact ⟨placed, method, made, request, once, Option.some.inj seen, request.support.mpr sends⟩

end Operation

end ApiBinding
