import ApiBinding.Proofs.Code.Hygiene

/-!
Signatures of methods: which parameters become arguments, in which order, with which defaults and
under which names.
-/

namespace ApiBinding

open Identifier (ofRaw)

/-- Whether a value for the parameter has to be given. -/
def Parameter.isRequired (parameter : Parameter) : Bool :=
  parameter.required || decide (parameter.location = .path)

namespace Operation

section

variable {scope : NameScope} {streamsBody : Bool} {taken : NameTable} {parameter : Parameter}
  {parameters : List Parameter} {given : Argument} {arguments : List Argument}

/-- No literal of a default reads as null. -/
theorem literalDefault?_ne {value : Value} {text : String} (h : literalDefault? value = some text) :
    text ≠ "None" := by
  have quiet {s : String} (h : Code.Quiet s) : s ≠ "None" := by
    rintro rfl
    exact absurd h (by decide)
  unfold literalDefault? at h
  split at h
  · cases h
  · cases h
  · cases h
  next s null bytes moment =>
    cases h
    cases s with
    | null => exact absurd rfl null
    | bool b => cases b <;> decide
    | int i => exact quiet (Code.quiet_int i)
    | float x => exact quiet (Code.quiet_binary x)
    | nan name => exact quiet (Code.quiet_binary .nan)
    | text s =>
      intro same
      have literal : Code.SaysOnly (fun _ => False) (Scalar.text s).literal := Code.says_quoted s
      rw [same] at literal
      exact absurd literal (by decide)
    | bytes b => exact absurd rfl (bytes b)
    | moment m => exact absurd rfl (moment m)
  · cases h

/-- Whether an argument stands for a parameter, from its name to its default. -/
structure StandsFor (parameter : Parameter) (argument : Argument) : Prop where
  sentName : parameter.name = .text argument.sentName
  name : argument.name = ofRaw .parameter argument.sentName
  location : argument.location = parameter.location
  required : argument.required = parameter.isRequired
  default : argument.default = if parameter.isRequired then none
    else some ((literalDefault? parameter.default).getD "None")
  null : argument.default = some "None" ↔
    argument.required = false ∧ literalDefault? parameter.default = none
  nullable : argument.default = some "None" → argument.type.nullable = true

theorem nullable_withNull (hint : TypeHint) (nullable : Bool) :
    (hint.withNull nullable).nullable = nullable := by
  cases hint <;> rfl

theorem standsFor_of_argument {sentName : String} (named : parameter.name = .text sentName)
    (made : argument streamsBody parameter (ofRaw .parameter sentName) sentName = .ok given) :
    StandsFor parameter given := by
  obtain ⟨type, _, made⟩ := bind_eq_ok.mp made
  dsimp only at made
  split at made
  next required =>
    cases made
    have required : parameter.isRequired = true := required
    exact ⟨named, rfl, rfl, required.symm, by rw [required]; rfl, by simp, nofun⟩
  next optional =>
    have optional : parameter.isRequired = false := by simpa [Parameter.isRequired] using optional
    split at made
    next literal written =>
      cases made
      have other : literal ≠ "None" := literalDefault?_ne written
      refine ⟨named, rfl, rfl, optional.symm, by simp [optional, written], ?_, ?_⟩
      · simp [other, written]
      · simp [other]
    next unwritten =>
      cases made
      refine ⟨named, rfl, rfl, optional.symm, by simp [optional, unwritten], ?_, fun _ => ?_⟩
      · simp [unwritten]
      · exact nullable_withNull type true

theorem StandsFor.isSome_default (h : StandsFor parameter given) :
    given.default.isSome = true ↔ given.required = false := by
  rw [h.default, h.required]
  split
  next required => simp [required]
  next optional => simpa using optional

/-- Arguments are made in the order of the parameters, and each name is taken once. -/
theorem argumentsFrom_eq_ok (made : argumentsFrom scope streamsBody taken parameters = .ok arguments) :
    List.Forall₂ StandsFor parameters arguments ∧ (arguments.map Argument.name).Nodup ∧
      ∀ argument ∈ arguments, taken.source? argument.name = none := by
  -- What is made later has no name of the table, which holds those of all arguments made before.
  induction parameters generalizing taken arguments with
  | nil =>
    cases made
    simp
  | cons parameter rest ih =>
    obtain ⟨sentName, named, made⟩ := bind_eq_ok.mp made
    dsimp only at made
    split at made
    · cases made
    next free =>
      obtain ⟨first, hfirst, made⟩ := bind_eq_ok.mp made
      obtain ⟨others, hothers, made⟩ := bind_eq_ok.mp made
      cases made
      obtain ⟨stand, distinct, unmet⟩ := ih hothers
      have named : parameter.name = .text sentName := eq_text_of_asText named
      have here := standsFor_of_argument named hfirst
      have name : first.name = ofRaw .parameter sentName := by
        have sent : first.sentName = sentName := by simpa [named] using here.sentName.symm
        rw [here.name, sent]
      have apart : ∀ argument ∈ others, taken.source? argument.name = none ∧
          first.name ≠ argument.name := fun argument member => by
        have unmet := unmet argument member
        rw [NameTable.source?_concat, Option.or_eq_none_iff, ← name] at unmet
        exact ⟨unmet.1, by simpa using unmet.2⟩
      refine ⟨.cons here stand, List.nodup_cons.mpr ⟨?_, distinct⟩, ?_⟩
      · rw [List.mem_map]
        rintro ⟨argument, member, same⟩
        exact (apart argument member).2 same.symm
      · rw [List.forall_mem_cons, name]
        exact ⟨free, fun argument member => (apart argument member).1⟩

theorem requiredFirst_perm (arguments : List Argument) : (requiredFirst arguments).Perm arguments :=
  List.filter_append_perm ..

/-- The arguments that may be left out follow those that may not. -/
theorem pairwise_requiredFirst
    (h : ∀ argument ∈ arguments, argument.default.isSome = true ↔ argument.required = false) :
    (requiredFirst arguments).Pairwise fun first second =>
      first.default.isSome = true → second.default.isSome = true := by
  rw [requiredFirst, List.pairwise_append]
  refine ⟨?_, ?_, ?_⟩
  · refine List.pairwise_of_forall_mem_list fun first member second _ some => ?_
    obtain ⟨inside, required⟩ := List.mem_filter.mp member
    rw [(h first inside).mp some] at required
    cases required
  · refine List.pairwise_of_forall_mem_list fun first _ second member _ => ?_
    obtain ⟨inside, optional⟩ := List.mem_filter.mp member
    exact (h second inside).mpr (by simpa using optional)
  · intro first _ second member _
    obtain ⟨inside, optional⟩ := List.mem_filter.mp member
    exact (h second inside).mpr (by simpa using optional)

theorem forall₂_requiredFirst (h : List.Forall₂ StandsFor parameters arguments) :
    List.Forall₂ StandsFor (parameters.filter Parameter.isRequired ++
      parameters.filter fun parameter => !parameter.isRequired) (requiredFirst arguments) := by
  refine List.rel_append (List.rel_filter ?_ h) (List.rel_filter ?_ h)
  · intro parameter argument stands
    simp only [stands.required]
  · intro parameter argument stands
    simp only [stands.required]

/-- Parameters of distinct arguments have names of which distinct identifiers are made. -/
theorem pairwise_of_standsFor (h : List.Forall₂ StandsFor parameters arguments)
    (distinct : (arguments.map Argument.name).Nodup) :
    parameters.Pairwise fun first second => ∀ a b, first.name = .text a → second.name = .text b →
      ofRaw .parameter a ≠ ofRaw .parameter b := by
  have named {parameter : Parameter} {argument : Argument} (stands : StandsFor parameter argument)
      {a : String} (text : parameter.name = .text a) : argument.name = ofRaw .parameter a := by
    have sent : argument.sentName = a := by simpa [text] using stands.sentName.symm
    rw [stands.name, sent]
  induction h with
  | nil => exact .nil
  | @cons parameter argument parameters arguments here rest ih =>
    rw [List.map_cons, List.nodup_cons] at distinct
    refine .cons (fun second member a b first_text second_text same => ?_) (ih distinct.2)
    obtain ⟨other, inside, stands⟩ := exists_of_forall₂ rest.flip member
    refine distinct.1 (List.mem_map.mpr ⟨other, inside, ?_⟩)
    rw [named stands second_text, named here first_text, same]

end

section

variable {operation : Operation} {settings : Settings} {method : Method}

theorem usedParameters_true (parameters : List Parameter) :
    usedParameters true parameters =
      parameters.filter fun parameter => !decide (parameter.location = .body) := by
  induction parameters with
  | nil => rfl
  | cons parameter rest ih =>
    by_cases body : parameter.location = .body
    · simp [usedParameters, ih, body]
    · simp [usedParameters, ih, body]

/-- All parameters are used up to the first body, and behind it those that are no bodies. -/
theorem usedParameters_eq (parameters : List Parameter) :
    usedParameters false parameters =
      parameters.takeWhile (fun parameter => !decide (parameter.location = .body)) ++
        match parameters.dropWhile fun parameter => !decide (parameter.location = .body) with
        | [] => []
        | body :: rest => body :: rest.filter fun other => !decide (other.location = .body) := by
  induction parameters with
  | nil => rfl
  | cons parameter rest ih =>
    by_cases body : parameter.location = .body
    · simp [usedParameters, usedParameters_true, body]
    · simpa [usedParameters, body] using ih

/-- Whether one name is made for two parameters that become arguments. -/
def SharesName (operation : Operation) : Prop :=
  ∃ first second a b, [first, second].Sublist (usedParameters false operation.parameters) ∧
    first.name = .text a ∧ second.name = .text b ∧ ofRaw .parameter a = ofRaw .parameter b

theorem not_sharesName_of_argumentsFrom {scope : NameScope} {streamsBody : Bool}
    {arguments : List Argument} (made : argumentsFrom scope streamsBody []
      (usedParameters false operation.parameters) = .ok arguments) : ¬operation.SharesName := by
  rintro ⟨first, second, a, b, pair, ha, hb, same⟩
  obtain ⟨stand, distinct, _⟩ := argumentsFrom_eq_ok made
  have apart := (pairwise_of_standsFor stand distinct).sublist pair
  rw [List.pairwise_pair] at apart
  exact apart a b ha hb same

theorem exists_argument (streamsBody : Bool) {parameter : Parameter}
    (spelled : TypeHint.canSpell parameter.type = true) (name sentName : String) :
    ∃ given, argument streamsBody parameter name sentName = .ok given := by
  unfold argument
  simp only [TypeHint.ofShape?, spelled, if_true, ok_bind]
  split
  · exact ⟨_, rfl⟩
  · split
    · exact ⟨_, rfl⟩
    · exact ⟨_, rfl⟩

/-- With values of the kinds meant for them, only names can be refused. -/
theorem argumentsFrom_collides (typed : operation.IsTyped) (scope : NameScope) (streamsBody : Bool)
    (taken : NameTable) {parameters : List Parameter} (inside : parameters ⊆ operation.parameters) :
    FailsOnly (fun failure => ∃ name first second, failure = .collision scope name first second)
      (argumentsFrom scope streamsBody taken parameters) := by
  induction parameters generalizing taken with
  | nil => simp [argumentsFrom]
  | cons parameter rest ih =>
    rw [List.cons_subset] at inside
    obtain ⟨sentName, named⟩ := typed.parameters parameter inside.1
    have spelled : TypeHint.canSpell parameter.type = true :=
      canSpell_of_isTyped typed (reaches_of_mem_parameters inside.1)
    rw [argumentsFrom, named]
    simp only [Value.asText, ok_bind]
    split
    next first _ => exact FailsOnly.error_iff.mpr ⟨_, first, sentName, rfl⟩
    next =>
      obtain ⟨given, made⟩ := exists_argument streamsBody spelled
        (ofRaw .parameter sentName) sentName
      rw [made]
      exact (ih _ inside.2).bind fun _ _ => by simp

theorem exists_names (typed : operation.IsTyped) (settings : Settings) :
    ∃ names, operation.names settings = .ok names := by
  obtain ⟨s, named⟩ := typed.name
  unfold names rawName
  rw [named]
  split
  · exact ⟨_, rfl⟩
  · exact ⟨_, rfl⟩

/-- An operation is refused for parameters that share a name before anything else is looked at. -/
theorem toMethod_of_sharesName (shares : operation.SharesName) (settings : Settings) :
    ∃ failure, operation.toMethod settings = .error failure ∧ (operation.IsTyped →
      ∃ names name first second, operation.names settings = .ok names ∧
        failure = .collision (.parameters names.client names.method) name first second) := by
  cases run : operation.toMethod settings with
  | ok method =>
    obtain ⟨names, declared, result, cases, making⟩ := toMethod_eq_ok run
    exact absurd shares (not_sharesName_of_argumentsFrom making.argued)
  | error failure =>
    refine ⟨failure, rfl, fun typed => ?_⟩
    obtain ⟨names, named⟩ := exists_names typed settings
    have collides := argumentsFrom_collides typed (.parameters names.client names.method)
      (operation.streamsRequest settings names) []
      (fun _ member => mem_of_mem_usedParameters member : usedParameters false operation.parameters ⊆ _)
    unfold toMethod at run
    rw [named] at run
    cases argued : argumentsFrom (.parameters names.client names.method)
        (operation.streamsRequest settings names) [] (usedParameters false operation.parameters) with
    | ok declared => exact absurd shares (not_sharesName_of_argumentsFrom argued)
    | error refused =>
      obtain ⟨name, first, second, rfl⟩ := collides refused argued
      simp only [ok_bind, argued, error_bind, Except.error.injEq] at run
      exact ⟨names, name, first, second, named, run.symm⟩

/-- What holds of the arguments of a method: they stand for the parameters, those that have to be
given before the others, and have names that its body leaves alone. -/
structure SignatureOf (operation : Operation) (method : Method) : Prop where
  parameters : List.Forall₂ StandsFor
    ((usedParameters false operation.parameters).filter Parameter.isRequired ++
      (usedParameters false operation.parameters).filter fun parameter => !parameter.isRequired)
    method.arguments
  optional : ∀ argument ∈ method.arguments,
    argument.default.isSome = true ↔ argument.required = false
  trailing : method.arguments.Pairwise fun first second =>
    first.default.isSome = true → second.default.isSome = true
  distinct : (method.arguments.map Argument.name).Nodup
  foreign : ∀ argument ∈ method.arguments, argument.name ∉ Code.bodyNames ++
    Identifier.localNames ++ SupportClass.all.map SupportClass.name
  unread : (∀ response ∈ operation.responses, response.description.IsProse) →
    ∀ style blocks, (method.steps.map Step.unnamed).mapM (Step.lines style) = .ok blocks →
      ∀ argument ∈ method.arguments, argument.name ∈ Code.names blocks.flatten →
        argument.name ∈ Code.bodyLabels

theorem signatureOf (made : operation.toMethod settings = .ok method) :
    SignatureOf operation method := by
  obtain ⟨names, declared, result, cases, making⟩ := toMethod_eq_ok made
  obtain ⟨stand, distinct, _⟩ := argumentsFrom_eq_ok making.argued
  have optional : ∀ argument ∈ declared,
      argument.default.isSome = true ↔ argument.required = false := fun argument member => by
    obtain ⟨parameter, _, stands⟩ := exists_of_forall₂ stand member
    exact stands.isSome_default
  have named : ∀ argument ∈ method.arguments, ∃ raw, argument.name = ofRaw .parameter raw := by
    intro argument member
    rw [making.arguments, mem_requiredFirst] at member
    obtain ⟨parameter, _, stands⟩ := exists_of_forall₂ stand member
    exact ⟨_, stands.name⟩
  refine ⟨?_, ?_, ?_, ?_, fun argument member => ?_, fun prose style blocks written argument member
    read => ?_⟩
  · rw [making.arguments]
    exact forall₂_requiredFirst stand
  · rw [making.arguments]
    exact fun argument member => optional argument (mem_requiredFirst.mp member)
  · rw [making.arguments]
    exact pairwise_requiredFirst optional
  · rw [making.arguments, ((requiredFirst_perm declared).map _).nodup_iff]
    exact distinct
  · obtain ⟨raw, name⟩ := named argument member
    rw [name]
    exact Code.not_mem_bodyNames raw
  · obtain ⟨raw, name⟩ := named argument member
    rw [name] at read ⊢
    exact Code.label_of_isOwn (Code.own_names prose made written _ read)

end

/-- Two parameters of one name are refused; without such the arguments stand for the parameters, in
their order, and keep clear of what the body says by itself. -/
theorem toMethod_signature (operation : Operation) (settings : Settings) :
    (operation.SharesName → ∃ failure, operation.toMethod settings = .error failure ∧
      (operation.IsTyped → ∃ names name first second, operation.names settings = .ok names ∧
        failure = .collision (.parameters names.client names.method) name first second)) ∧
      ∀ method, operation.toMethod settings = .ok method → SignatureOf operation method :=
  ⟨fun shares => toMethod_of_sharesName shares settings, fun _ made => signatureOf made⟩

/-- An operation with parameters of all kinds, the first of which may be left out. -/
def sending : Operation where
  tag := "Pet"
  name := .text "Send"
  method := "post"
  path := "/pets/\x7bid\x7d"
  parameters := [
    { name := .text "limit", location := .query, type := .primitive .integer false,
      default := .scalar (.int 10) },
    { name := .text "id", location := .path, type := .primitive .string false },
    { name := .text "self", location := .body, type := .primitive .string false },
    { name := .text "self", location := .body, type := .primitive .string false },
    { name := .text "X-Trace", location := .header, type := .primitive .string false,
      required := true }]
  responses := [{ status := "204" }]

theorem toMethod_signature_sending :
    ∃ method, sending.toMethod .standard = .ok method ∧ SignatureOf sending method ∧
      method.arguments.map (fun argument => (argument.name, argument.default)) =
        [("id", none), ("x_trace", none), ("limit", some "10"), ("self_", some "None")] := by
  obtain ⟨method, made⟩ : ∃ method, sending.toMethod .standard = .ok method :=
    exists_eq_ok (by decide +kernel)
  have seen : (sending.toMethod .standard).toOption.map (fun method => method.arguments.map
      fun argument => (argument.name, argument.default)) =
        some [("id", none), ("x_trace", none), ("limit", some "10"), ("self_", some "None")] := by
    decide +kernel
  rw [made] at seen
  exact ⟨method, made, (toMethod_signature sending .standard).2 method made, Option.some.inj seen⟩

end Operation

end ApiBinding
