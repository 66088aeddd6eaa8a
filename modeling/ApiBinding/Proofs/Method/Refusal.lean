import ApiBinding.Proofs.Entries
import ApiBinding.Proofs.Method.Making
import ApiBinding.Proofs.NameTable
import ApiBinding.Proofs.TypeHint

/-!
Why an operation is refused: two of its parameters or two names of its shapes have one identifier,
or it holds something other than the kinds of values it is made for.
-/

namespace ApiBinding.Operation

open TypeHint (ofShape? canSpell)
open Identifier (ofRaw)

/-- Whether names are texts and the members of enumerations can be told apart. -/
structure IsTyped (operation : Operation) : Prop where
  name : ∃ s, operation.name = .text s
  parameters : ∀ parameter ∈ operation.parameters, ∃ s, parameter.name = .text s
  members : ∀ name members nullable, operation.Reaches (.enumeration name members nullable) →
    members.all Value.isFixed = true

/-- The failures in which making the method of an operation can end. -/
inductive Refusal (operation : Operation) : Failure → Prop
  | untyped (h : ¬operation.IsTyped) : Refusal operation (.misuse .wrongKind)
  | parameters (client method : String) {first second : Parameter} {a b : String}
      (h : [first, second].Sublist (usedParameters false operation.parameters))
      (ha : first.name = .text a) (hb : second.name = .text b)
      (same : ofRaw .parameter a = ofRaw .parameter b) :
      Refusal operation (.collision (.parameters client method) (ofRaw .parameter b) a b)
  | clash {first second : String} (h : Declaration.Clash operation.Reaches first second) :
      Refusal operation (.collision .types (ofRaw .type second) first second)

variable {operation : Operation}

theorem canSpell_of_isTyped (typed : operation.IsTyped) {shape : Shape}
    (h : operation.Reaches shape) : canSpell shape = true := by
  apply TypeHint.canSpell_of_members
  intro name members nullable inside
  obtain ⟨root, hroot, reached⟩ := h
  exact typed.members name members nullable ⟨root, hroot, reached.trans inside⟩

theorem ofShape?_failsOnly (context : TypeHint.Context) {shape : Shape}
    (h : operation.Reaches shape) : FailsOnly operation.Refusal (ofShape? context shape) := by
  unfold TypeHint.ofShape?
  split
  next => simp
  next unspelled =>
    exact FailsOnly.error_iff.mpr (.untyped fun typed => unspelled (canSpell_of_isTyped typed h))

theorem asText_failsOnly {value : Value}
    (text : operation.IsTyped → ∃ s, value = .text s) :
    FailsOnly operation.Refusal value.asText := by
  unfold Value.asText
  split
  next => simp
  next other =>
    refine FailsOnly.error_iff.mpr (.untyped fun typed => ?_)
    obtain ⟨s, hs⟩ := text typed
    exact other s hs

theorem eq_text_of_asText {value : Value} {s : String} (h : value.asText = .ok s) :
    value = .text s := by
  unfold Value.asText at h
  split at h
  next =>
    cases h
    rfl
  next => cases h

theorem rawName_failsOnly : FailsOnly operation.Refusal operation.rawName := by
  unfold rawName
  split
  · exact asText_failsOnly IsTyped.name
  · simp

theorem names_failsOnly (settings : Settings) :
    FailsOnly operation.Refusal (operation.names settings) :=
  rawName_failsOnly.bind fun _ _ => by simp

theorem reaches_of_mem_parameters {parameter : Parameter} (h : parameter ∈ operation.parameters) :
    operation.Reaches parameter.type :=
  ⟨parameter.type, mem_shapes_of_parameter h, .refl _⟩

theorem reaches_of_mem_responses {response : Response} (h : response ∈ operation.responses)
    {shape : Shape} (hs : response.type = some shape) : operation.Reaches shape :=
  ⟨shape, mem_shapes_of_response h hs, .refl _⟩

theorem argument_failsOnly (streamsBody : Bool) {parameter : Parameter}
    (h : parameter ∈ operation.parameters) (name sentName : String) :
    FailsOnly operation.Refusal (argument streamsBody parameter name sentName) := by
  refine (ofShape?_failsOnly _ (reaches_of_mem_parameters h)).bind fun type _ => ?_
  dsimp only
  cases parameter.required || decide (parameter.location = .path) with
  | true => simp
  | false => cases literalDefault? parameter.default <;> simp

theorem mem_of_mem_usedParameters {body : Bool} {parameters : List Parameter}
    {parameter : Parameter} (h : parameter ∈ usedParameters body parameters) :
    parameter ∈ parameters := by
  induction parameters generalizing body with
  | nil => simp [usedParameters] at h
  | cons first rest ih =>
    unfold usedParameters at h
    split at h
    · split at h
      · exact List.mem_cons_of_mem _ (ih h)
      · exact (List.mem_cons.mp h).elim (by simp +contextual) fun h => List.mem_cons_of_mem _ (ih h)
    · exact (List.mem_cons.mp h).elim (by simp +contextual) fun h => List.mem_cons_of_mem _ (ih h)

/-- An argument is refused for one before it of the same name. -/
theorem argumentsFrom_failsOnly (client method : String) (streamsBody : Bool)
    (before parameters : List Parameter) (taken : NameTable)
    (used : usedParameters false operation.parameters = before ++ parameters)
    (entered : ∀ entry ∈ taken, ∃ parameter ∈ before, parameter.name = .text entry.2 ∧
      entry.1 = ofRaw .parameter entry.2) : FailsOnly operation.Refusal
      (argumentsFrom (.parameters client method) streamsBody taken parameters) := by
  -- The table holds the identifiers of the parameters before, which `entered` keeps.
  induction parameters generalizing before taken with
  | nil => simp [argumentsFrom]
  | cons parameter rest ih =>
    have here : parameter ∈ operation.parameters := by
      have : parameter ∈ usedParameters false operation.parameters := by simp [used]
      exact mem_of_mem_usedParameters this
    have text : FailsOnly operation.Refusal parameter.name.asText :=
      asText_failsOnly fun typed => typed.parameters parameter here
    apply text.bind
    intro sentName named
    have named : parameter.name = .text sentName := eq_text_of_asText named
    dsimp only
    split
    next first taken_by =>
      obtain ⟨earlier, he, hname, hid⟩ := entered _ (NameTable.mem_of_source? taken_by)
      have pair : [earlier, parameter].Sublist (before ++ parameter :: rest) :=
        (List.singleton_sublist.mpr he).append (List.singleton_sublist.mpr (by simp))
      exact FailsOnly.error_iff.mpr
        (.parameters client method (used ▸ pair) hname named hid.symm)
    next =>
      apply (argument_failsOnly streamsBody here _ _).bind
      intro argument _
      refine (ih (before ++ [parameter]) _ (by simp [used]) ?_).bind fun _ _ => by simp
      intro entry hentry
      rcases List.mem_append.mp hentry with hentry | hentry
      · obtain ⟨earlier, he, h⟩ := entered entry hentry
        exact ⟨earlier, List.mem_append_left _ he, h⟩
      · obtain rfl : entry = _ := by simpa using hentry
        exact ⟨parameter, by simp, named, rfl⟩

theorem mem_responses_of_primary? {response : Response} (h : operation.primary? = some response) :
    response ∈ operation.responses ∧ response.isSuccess = true := by
  have success : response ∈ operation.successes := by
    unfold primary? at h
    split at h
    next r hr =>
      cases h
      exact List.mem_of_find?_eq_some hr
    next => exact List.mem_of_head? h
  exact List.mem_filter.mp success

theorem resultHint_failsOnly (mode : ResponseMode) :
    FailsOnly operation.Refusal (operation.resultHint mode) := by
  unfold resultHint
  split
  · simp
  next primary hprimary =>
    split
    · simp
    next shape hshape =>
      have reached := reaches_of_mem_responses (mem_responses_of_primary? hprimary).1 hshape
      refine (ofShape?_failsOnly _ reached).bind fun type _ => ?_
      split
      · simp
      · split <;> simp

theorem caseOf_failsOnly (mode : ResponseMode) {response : Response}
    (h : response ∈ operation.responses) :
    FailsOnly operation.Refusal (caseOf mode response) := by
  unfold caseOf
  split
  · unfold caseForSuccess
    dsimp only
    split
    · split <;> simp
    next shape hshape =>
      have reached := reaches_of_mem_responses h hshape
      split
      · exact (ofShape?_failsOnly _ reached).bind fun _ _ => by simp
      · refine (ofShape?_failsOnly _ reached).bind fun type _ => ?_
        split
        · simp
        · split <;> simp
  · unfold caseForError
    cases hshape : response.type with
    | none => simp
    | some shape =>
      have reached := reaches_of_mem_responses h hshape
      exact ((ofShape?_failsOnly _ reached).bind fun _ _ => by simp).bind fun _ _ => by simp

theorem cases_failsOnly (mode : ResponseMode) :
    FailsOnly operation.Refusal (operation.cases mode) := by
  refine FailsOnly.bind (FailsOnly.mapM fun response h => ?_) fun _ _ => by simp
  exact caseOf_failsOnly mode ((Entries.distinct_sublist _ _).subset h)

theorem ofMeeting_failsOnly {shape : Shape} {source : String} (h : operation.Reaches shape)
    (name : shape.declaredName? = some source) :
    FailsOnly operation.Refusal (Declaration.ofMeeting source shape) := by
  cases shape with
  | primitive kind nullable => cases name
  | array element nullable streamable => cases name
  | generic label argument nullable => cases name
  | unknown description nullable => cases name
  | enumeration label members nullable =>
    rw [Declaration.ofMeeting, Declaration.ofEnumeration]
    split
    next => simp
    next loose =>
      exact FailsOnly.error_iff.mpr (.untyped fun typed => loose (typed.members _ _ _ h))
  | object label fields additional nullable =>
    have part {s : Shape} (hs : s ∈ (Shape.object label fields additional nullable).parts) :
        FailsOnly operation.Refusal (ofShape? .response s) := ofShape?_failsOnly _ (h.part hs)
    change FailsOnly operation.Refusal (Declaration.ofObject _ _ fields additional)
    unfold Declaration.ofObject
    split
    · cases additional with
      | none => simp
      | some value =>
        exact (part (by simp [Shape.parts, Shape.additional])).bind fun _ _ => by simp
    · refine FailsOnly.bind (FailsOnly.mapM fun field hf => ?_) fun _ _ => by simp
      refine (part ?_).bind fun _ _ => by simp
      simpa [Shape.parts, Shape.fields] using Or.inl ⟨field, hf, rfl⟩

theorem collected_failsOnly : FailsOnly operation.Refusal (Declaration.collected operation) := by
  intro failure h
  rcases Declaration.collected_failure h with ⟨shape, source, hs, name, refused⟩ | ⟨_, _, hc, rfl⟩
  · exact ofMeeting_failsOnly hs name failure refused
  · exact .clash hc

/-- Making a method fails for its parameters, for its named shapes or for values of other kinds. -/
theorem toMethod_failsOnly (settings : Settings) :
    FailsOnly operation.Refusal (operation.toMethod settings) := by
  apply (names_failsOnly settings).bind
  intro names _
  apply (argumentsFrom_failsOnly _ _ _ [] _ [] rfl (by simp)).bind
  intro declared _
  apply (resultHint_failsOnly _).bind
  intro result _
  apply (cases_failsOnly _).bind
  intro cases _
  exact collected_failsOnly.bind fun _ _ => by simp

end ApiBinding.Operation
