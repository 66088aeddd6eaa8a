import ApiBinding.Proofs.Code.Guard
import ApiBinding.Proofs.Method.Request

/-!
When arguments that may be null are tested before they are converted: the test is made for those
that null stands for leaving out, and for no others.
-/

namespace ApiBinding.Operation

open Code (ConvertsGuarded Converts GuardedFrom IsMade converters)
open TypeHint (ofShape)

variable {operation : Operation} {settings : Settings} {method : Method} {step : Step}
  {given : Argument} {name : String} {style : TypeHint.Style} {lines : List String}

/-- Whether a step converts the arguments that it is given. -/
def StepConverts : Step → Prop
  | .headers .. => True
  | .wholeBody _ format => format = .jsonList
  | .streamedBody _ => True
  | _ => False

/-- Whether the arguments of a step belong there, and its responses say nothing unread. -/
def StepFits (operation : Operation) : Step → Prop
  | .url _ arguments => ∀ given ∈ arguments, given.location = .path
  | .query arguments => ∀ given ∈ arguments, given.location = .query
  | .headers arguments _ _ => ∀ given ∈ arguments, given.location = .header
  | .wholeBody given format => ∃ body ∈ operation.parameters, ∃ streams,
      MadeFor streams body given ∧ given.location = .body ∧ format = bodyFormat body.type
  | .streamedBody given => ∃ body ∈ operation.parameters, ∃ streams,
      MadeFor streams body given ∧ given.location = .body ∧ body.type.canStream = true
  | .response mode cases _ =>
    ∀ c ∈ cases, (c.action = .openStream → mode.isStreamed = true) ∧ c.message.IsProse
  | _ => True

theorem not_converts_step (made : IsMade name) (fits : StepFits operation step)
    (named : ∀ argument ∈ step.arguments, IsMade argument.name)
    (elsewhere : name ∉ step.arguments.map Argument.name)
    (written : step.lines style = .ok lines) : ∀ line ∈ lines, ¬Converts name line := by
  have other := Code.ne_of_not_mem_names elsewhere
  cases step with
  | url path arguments =>
    cases written
    rw [List.forall_mem_singleton]
    exact Code.not_converts_address named other path
  | query arguments =>
    cases written
    exact Code.not_converts_query made named
  | headers arguments accept contentType =>
    cases written
    rw [headerLines, List.forall_mem_cons]
    exact ⟨Code.not_converts_fixedHeaders made accept contentType,
      Code.not_converts_assignments named other⟩
  | wholeBody argument format =>
    cases written
    have here := List.mem_singleton_self argument
    rw [List.forall_mem_singleton]
    exact Code.not_converts_wholeBody (named argument here) (.inl (other argument here))
  | streamedBody argument =>
    cases written
    have here := List.mem_singleton_self argument
    rw [List.forall_mem_singleton]
    exact Code.not_converts_streamedBody (named argument here) (other argument here)
  | request httpMethod viaFactory hasQuery hasContent =>
    cases written
    rw [List.forall_mem_singleton]
    exact Code.not_converts_of_says (Code.says_request Code.allowsPlain_unconverted ..)
  | send =>
    cases written
    have sent : ∀ line ∈
        [bodyIndent ++ "response_ = await self._transport.send(request_, stream=True)",
          bodyIndent ++ "dispose_response_ = True"], Code.SaysOnly (· ∉ converters) line := by
      decide
    exact fun line member => Code.not_converts_of_says (sent line member)
  | response mode cases result =>
    exact Code.not_converts_response (fun c member => (fits c member).1)
      (fun c member => (fits c member).2) written

/-- A step that converts an argument does so under a test exactly if the argument may be left out
for null. -/
theorem guarded_step_iff {above : Option String} (placed : given.location ≠ .path)
    (fits : StepFits operation step) (named : ∀ argument ∈ step.arguments, IsMade argument.name)
    (distinct : (step.arguments.map Argument.name).Nodup) (here : given ∈ step.arguments)
    (written : step.lines style = .ok lines) :
    GuardedFrom given.name above lines ↔ given.isOmittable = true ∨ ¬StepConverts step := by
  have made := named given here
  cases step with
  | url path arguments => exact absurd (fits given here) placed
  | query arguments =>
    cases written
    refine iff_of_true (Code.guardedFrom_of_quiet ?_) (.inr (by simp [StepConverts]))
    exact Code.not_converts_query made named
  | headers arguments accept contentType =>
    cases written
    have guarded : GuardedFrom given.name above (headerLines arguments accept contentType) ↔
        given.isOmittable = true := Code.guarded_headerLines named distinct here accept contentType
    simp [guarded, StepConverts]
  | wholeBody argument format =>
    cases written
    obtain rfl := List.mem_singleton.mp here
    by_cases listed : format = .jsonList
    · subst listed
      have guarded : GuardedFrom given.name above
          [bodyIndent ++ "content_ = " ++ wholeBodyExpression given .jsonList] ↔
            given.isOmittable = true :=
        Code.guarded_content made (by decide) (by decide) (Code.mentions_listed made)
      simp [guarded, StepConverts]
    · refine iff_of_true (Code.guardedFrom_of_quiet ?_) (.inr (by simpa [StepConverts]))
      rw [List.forall_mem_singleton]
      exact Code.not_converts_wholeBody made (.inr listed)
  | streamedBody argument =>
    cases written
    obtain rfl := List.mem_singleton.mp here
    have guarded : GuardedFrom given.name above
        [bodyIndent ++ "content_ = " ++ streamedBodyExpression given] ↔ given.isOmittable = true :=
      Code.guarded_content made (by decide) (by decide) (Code.mentions_streamed made)
    simp [guarded, StepConverts]
  | _ => cases here

theorem isMade_of_mem (made : operation.toMethod settings = .ok method)
    (member : given ∈ method.arguments) : IsMade given.name := by
  obtain ⟨_, stands⟩ := ((requestOf made).given given member).1
  exact ⟨_, stands.2.name⟩

theorem arguments_subset (made : operation.toMethod settings = .ok method)
    (inside : step ∈ method.steps) : step.arguments ⊆ method.arguments := by
  obtain ⟨names, declared, result, cases, making⟩ := toMethod_eq_ok made
  intro given here
  have listed :=
    (arguments_steps_perm making).mem_iff.mp (List.mem_flatMap.mpr ⟨step, inside, here⟩)
  exact (List.mem_filter.mp listed).1

theorem fits_steps (made : operation.toMethod settings = .ok method)
    (prose : ∀ response ∈ operation.responses, response.description.IsProse) :
    ∀ step ∈ method.steps, StepFits operation step := by
  obtain ⟨names, declared, result, cases, making⟩ := toMethod_eq_ok made
  have located {location : Location} : ∀ given ∈ argumentsIn location method.arguments,
      given.location = location := fun given member => (mem_argumentsIn_iff.mp member).2
  have response : StepFits operation
      (.response (operation.responseMode settings names) cases result) := fun c member =>
    ⟨Code.isStreamed_of_openStream making.cased member, isProse_message prose making.cased c member⟩
  have body : ∀ step ∈ (operation.sentBody settings names declared).2, StepFits operation step := by
    have makes := makesBody making
    generalize (operation.sentBody settings names declared).2 = steps at makes
    cases makes with
    | nothing => simp
    | whole found member made =>
      obtain ⟨inside, location⟩ := mem_of_body? found
      rw [List.forall_mem_singleton]
      exact ⟨_, inside, false, made, made.location.trans location, rfl⟩
    | items found member made type listed =>
      obtain ⟨inside, location⟩ := mem_of_body? found
      have array := (made.producer_iff.mp (by simp [type])).2.2
      rw [List.forall_mem_singleton]
      exact ⟨_, inside, true, made, made.location.trans location, array⟩
  intro step inside
  rw [making.steps] at inside
  simp only [List.mem_append, List.mem_cons, List.not_mem_nil, or_false, or_assoc] at inside
  rcases inside with rfl | inside | rfl | inside | rfl | rfl | rfl
  · exact located
  · split at inside
    · cases inside
    · obtain rfl := List.mem_singleton.mp inside
      exact located
  · exact located
  · exact body step inside
  · trivial
  · trivial
  · exact response

theorem bodyFormat_eq_jsonList (shape : Shape) :
    bodyFormat shape = .jsonList ↔ shape.isArray = true := by
  cases shape with
  | primitive kind nullable => cases kind <;> simp [bodyFormat, Shape.isBytes, Shape.isArray]
  | _ => simp [bodyFormat, Shape.isBytes, Shape.isArray]

/-- A step converts what it is given for a header, or for a body that is an array. -/
theorem exists_parameter_of_fits (made : operation.toMethod settings = .ok method)
    (fits : StepFits operation step) (member : given ∈ method.arguments)
    (here : given ∈ step.arguments) (placed : given.location ≠ .path) :
    ∃ parameter ∈ operation.parameters, ∃ streams, MadeFor streams parameter given ∧
      (¬StepConverts step ↔ given.location = .query ∨
        (given.location = .body ∧ parameter.type.isArray = false)) := by
  obtain ⟨names, declared, result, cases, making⟩ := toMethod_eq_ok made
  obtain ⟨parameter, inside, made⟩ := exists_madeFor making member
  cases step with
  | url path arguments => exact absurd (fits given here) placed
  | query arguments => exact ⟨parameter, inside, _, made, by simp [StepConverts, fits given here]⟩
  | headers arguments accept contentType =>
    exact ⟨parameter, inside, _, made, by simp [StepConverts, fits given here]⟩
  | wholeBody argument format =>
    obtain rfl := List.mem_singleton.mp here
    obtain ⟨body, inside, streams, made, location, rfl⟩ := fits
    exact ⟨body, inside, streams, made, by simp [StepConverts, location, bodyFormat_eq_jsonList]⟩
  | streamedBody argument =>
    obtain rfl := List.mem_singleton.mp here
    obtain ⟨body, inside, streams, made, location, streamable⟩ := fits
    have array : body.type.isArray = true := by
      revert streamable
      cases body.type <;> simp [Shape.canStream, Shape.isArray]
    exact ⟨body, inside, streams, made, by simp [StepConverts, location, array]⟩
  | _ => cases here

theorem not_converts_steps (made : IsMade name) {steps : List Step} {blocks : List (List String)}
    (fits : ∀ step ∈ steps, StepFits operation step)
    (named : ∀ step ∈ steps, ∀ argument ∈ step.arguments, IsMade argument.name)
    (elsewhere : ∀ step ∈ steps, name ∉ step.arguments.map Argument.name)
    (written : steps.mapM (Step.lines style) = .ok blocks) :
    ∀ line ∈ blocks.flatten, ¬Converts name line := by
  intro line member
  obtain ⟨block, inside, member⟩ := List.mem_flatten.mp member
  obtain ⟨step, here, lines⟩ := exists_of_forall₂ (mapM_eq_ok.mp written) inside
  exact not_converts_step made (fits step here) (named step here) (elsewhere step here) lines line
    member

theorem nullable_ofShape (context : TypeHint.Context) (shape : Shape) :
    (ofShape context shape).nullable = shape.nullable := by
  cases shape with
  | primitive kind nullable => cases kind <;> rfl
  | array element nullable streamable => rfl
  | generic label argument nullable => rfl
  | unknown description nullable => rfl
  | enumeration label members nullable =>
    cases hl : Shape.label? label <;> by_cases hm : members.isEmpty <;>
      simp [ofShape, hl, hm, TypeHint.nullable, Shape.nullable]
  | object label fields additional nullable =>
    cases hl : Shape.label? label <;> cases additional <;>
      simp [ofShape, hl, TypeHint.nullable, Shape.nullable]

/-- An argument may be null if its shape may, or if null stands for leaving it out. -/
theorem MadeFor.nullable_iff {streams : Bool} {parameter : Parameter}
    (made : MadeFor streams parameter given) : given.type.nullable = true ↔
      parameter.type.nullable = true ∨ given.isOmittable = true := by
  rw [made.type]
  split
  next omittable => simp [nullable_withNull, omittable]
  next kept => simp [nullable_ofShape, kept]

/-- What may be null is tested before it is converted exactly if null stands for leaving it out. -/
theorem nullable_guarded_iff (made : operation.toMethod settings = .ok method)
    (prose : ∀ response ∈ operation.responses, response.description.IsProse)
    (member : given ∈ method.arguments)
    (placed : given.location = .query ∨ given.location = .header ∨ given.location = .body) :
    ∃ parameter ∈ operation.parameters, StandsFor parameter given ∧
      (given.type.nullable = true ↔ parameter.type.nullable = true ∨ given.isOmittable = true) ∧
      ∀ style blocks, method.steps.mapM (Step.lines style) = .ok blocks →
        (ConvertsGuarded given.name blocks.flatten ↔ given.isOmittable = true ∨
          given.location = .query ∨
            (given.location = .body ∧ parameter.type.isArray = false)) := by
  have unaddressed : given.location ≠ .path := by
    rintro path
    simp [path] at placed
  have place : given.location.hasPlace = true := by
    rcases placed with location | location | location <;> rw [location] <;> rfl
  obtain ⟨before, step, after, split, here, distinct, apart⟩ :=
    ((requestOf made).given given member).2 place
  have fits := fits_steps made prose
  have named : ∀ step ∈ method.steps, ∀ argument ∈ step.arguments, IsMade argument.name :=
    fun step inside argument given => isMade_of_mem made (arguments_subset made inside given)
  rw [split, List.forall_mem_append, List.forall_mem_cons] at fits named
  rw [List.forall_mem_append] at apart
  obtain ⟨parameter, inside, streams, stands, converts⟩ :=
    exists_parameter_of_fits made fits.2.1 member here unaddressed
  refine ⟨parameter, inside, stands.toStandsFor, stands.nullable_iff,
    fun style blocks written => ?_⟩
  rw [split] at written
  obtain ⟨first, block, last, hfirst, hblock, hlast, rfl⟩ := mapM_append_cons_eq_ok written
  have lines : (first ++ block :: last).flatten = first.flatten ++ block ++ last.flatten := by simp
  have known := isMade_of_mem made member
  rw [ConvertsGuarded, lines, ← converts]
  exact Code.guardedFrom_around (not_converts_steps known fits.1 named.1 apart.1 hfirst)
    (not_converts_steps known fits.2.2 named.2.2 apart.2 hlast)
    fun above => guarded_step_iff unaddressed fits.2.1 named.2.1 distinct here hblock

/-- An operation with three headers that may be null: one that has to be given, one with a default
of its own, and one that may be left out. -/
def tracing : Operation where
  tag := "Pet"
  name := .text "Ping"
  method := "get"
  path := "/ping"
  parameters := [
    { name := .text "X-Trace", location := .header, type := .primitive .string true,
      required := true },
    { name := .text "X-Level", location := .header, type := .primitive .string true,
      default := .text "low" },
    { name := .text "X-Note", location := .header, type := .primitive .string false }]
  responses := [{ status := "204" }]

theorem nullable_guarded_iff_tracing :
    ∃ method note, tracing.toMethod .standard = .ok method ∧
      (∀ response ∈ tracing.responses, response.description.IsProse) ∧
      note ∈ method.arguments ∧ note.location = .header ∧ note.name = "x_note" ∧
      note.type.nullable = true ∧
      ∀ style blocks, method.steps.mapM (Step.lines style) = .ok blocks →
        ConvertsGuarded note.name blocks.flatten := by
  obtain ⟨method, made⟩ : ∃ method, tracing.toMethod .standard = .ok method :=
    exists_eq_ok (by decide +kernel)
  have seen : (tracing.toMethod .standard).toOption.bind (fun method => method.arguments[2]?.map
      fun note => (note.location, note.name, note.isOmittable)) =
        some (.header, "x_note", true) := by decide +kernel
  rw [made] at seen
  obtain ⟨note, third, facts⟩ : ∃ note, method.arguments[2]? = some note ∧ _ :=
    Option.map_eq_some_iff.mp seen
  simp only [Prod.mk.injEq] at facts
  obtain ⟨location, name, omittable⟩ := facts
  have prose : ∀ response ∈ tracing.responses, response.description.IsProse := by
    simp [tracing, Value.IsProse]
  have member := List.mem_of_getElem? third
  obtain ⟨parameter, _, _, nullable, guarded⟩ :=
    nullable_guarded_iff made prose member (.inr (.inl location))
  exact ⟨method, note, made, prose, member, location, name, nullable.mpr (.inr omittable),
    fun style blocks written => (guarded style blocks written).mpr (.inl omittable)⟩

/-- A header that has to be given but may be null is converted untested. -/
theorem null_header_untested :
    ∃ method blocks trace, tracing.toMethod .standard = .ok method ∧
      method.steps.mapM (Step.lines (.inline ⟨true, true, true, true⟩)) = .ok blocks ∧
      trace ∈ method.arguments ∧ trace.location = .header ∧ trace.name = "x_trace" ∧
      trace.type.nullable = true ∧
      "        request_headers_['X-Trace'] = str(x_trace)" ∈ blocks.flatten ∧
      ¬ConvertsGuarded trace.name blocks.flatten := by
  obtain ⟨method, made⟩ : ∃ method, tracing.toMethod .standard = .ok method :=
    exists_eq_ok (by decide +kernel)
  have seen : (tracing.toMethod .standard).toOption.bind (fun method =>
      (method.steps.mapM (Step.lines (.inline ⟨true, true, true, true⟩))).toOption.bind
        fun blocks => method.arguments[0]?.map fun trace =>
          (trace.location, trace.name, trace.type.nullable,
            decide ("        request_headers_['X-Trace'] = str(x_trace)" ∈ blocks.flatten),
            decide (ConvertsGuarded trace.name blocks.flatten))) =
        some (.header, "x_trace", true, true, false) := by decide +kernel
  rw [made] at seen
  change (Except.toOption (method.steps.mapM _)).bind _ = _ at seen
  obtain ⟨blocks, written, seen⟩ := Option.bind_eq_some_iff.mp seen
  obtain ⟨trace, first, facts⟩ := Option.map_eq_some_iff.mp seen
  simp only [Prod.mk.injEq, decide_eq_true_eq, decide_eq_false_iff_not] at facts
  obtain ⟨location, name, nullable, line, unguarded⟩ := facts
  exact ⟨method, blocks, trace, made, eq_ok_of_toOption written, List.mem_of_getElem? first,
    location, name, nullable, line, unguarded⟩

end ApiBinding.Operation
