import ApiBinding.Proofs.Code.Body
import ApiBinding.Proofs.Code.Docstring
import ApiBinding.Proofs.Method.Hints

/-!
What the lines of methods name: of the support classes, none but those that the method relies on.
-/

namespace ApiBinding.Code

open Text (joined)

variable {support : List SupportClass}

/-- Whether what is written for an argument names no support class. -/
structure IsPlain (argument : Argument) : Prop where
  name : Says [] argument.name
  type : Fits [] argument.type
  default : ∀ text, argument.default = some text → Says [] text

theorem says_literalDefault {value : Value} {text : String}
    (h : Operation.literalDefault? value = some text) : Says [] text := by
  unfold Operation.literalDefault? at h
  split at h
  · cases h
  · cases h
  · cases h
  · cases h
    exact says_scalar _
  · cases h

theorem isPlain_argument {streamsBody : Bool} {parameter : Parameter} {raw sentName : String}
    {argument : Argument} (made : Operation.argument streamsBody parameter
      (Identifier.ofRaw .parameter raw) sentName = .ok argument) : IsPlain argument := by
  have name : Says [] (Identifier.ofRaw .parameter raw) := says_small (by decide) raw
  obtain ⟨hint, hhint, made⟩ := bind_eq_ok.mp made
  have type : Fits [] hint := by
    rw [(Declaration.ofShape?_eq_ok.mp hhint).2]
    exact fits_ofShape _ _
  dsimp only at made
  split at made
  · cases made
    exact ⟨name, type, nofun⟩
  · split at made
    next literal written =>
      cases made
      refine ⟨name, type, fun text h => ?_⟩
      cases h
      exact says_literalDefault written
    next =>
      cases made
      refine ⟨name, type.withNull true, fun text h => ?_⟩
      cases h
      exact by decide

theorem says_signature {argument : Argument} (plain : IsPlain argument) (style : TypeHint.Style) :
    Says [] (argument.signature style) := by
  have colon : Joins [] ": " := by decide
  have equals : Joins [] " = " := by decide
  have typed := (plain.name.join colon).append (says_hint style argument.type plain.type)
  unfold Argument.signature
  dsimp only
  split
  next default given => exact (typed.join equals).append (plain.default default given)
  next => exact typed

theorem allowsBodies : AllowsBodies (Allows support) where
  words := fun _ member => Allows.mono (List.nil_subset _)
    ((by decide : ∀ name ∈ bodyWords, Allows [] name) _ member)
  numbers := fun n => Allows.mono (List.nil_subset _) (allows_of_quiet (quiet_nat n))

section

open Operation (Making Results)

variable {operation : Operation} {settings : Settings} {method : Method} {mode : ResponseMode}

theorem isPlain_of_made (made : operation.toMethod settings = .ok method) :
    ∀ argument ∈ method.arguments, IsPlain argument := by
  obtain ⟨names, declared, result, cases, making⟩ := Operation.toMethod_eq_ok made
  intro argument ha
  rw [making.arguments, Operation.mem_requiredFirst] at ha
  obtain ⟨_, _, _, hmade⟩ := Operation.exists_of_argumentsFrom making.argued argument ha
  exact isPlain_argument hmade

theorem isStreamed_of_openStream {cases : List StatusCase}
    (h : operation.cases mode = .ok cases) {c : StatusCase} (member : c ∈ cases)
    (opens : c.action = .openStream) : mode.isStreamed = true := by
  obtain ⟨declared, given, rfl⟩ := Operation.cases_eq_ok h
  rcases Operation.mem_cases_iff.mp member with ⟨_, rfl⟩ | member
  · cases opens
  obtain ⟨response, _, gives⟩ := exists_of_forall₂ given member
  cases gives with
  | items success typed streamed => exact streamed
  | _ => cases opens

theorem fits_steps (made : operation.toMethod settings = .ok method) :
    ∀ step ∈ method.steps, StepFits (Allows method.support) step := by
  have plain := isPlain_of_made made
  have located (location : Location) :
      ∀ argument ∈ Operation.argumentsIn location method.arguments,
        Says method.support argument.name :=
    fun argument ha => (plain argument (Operation.mem_argumentsIn ha)).name.of_nil
  obtain ⟨names, declared, result, cases, making⟩ := Operation.toMethod_eq_ok made
  have carried : ∀ one ∈ method.support, Allows method.support one.name :=
    fun one member _ => List.mem_map_of_mem member
  refine making.forall_steps (located .path) (located .query) (located .header) ?_ ?_ ?_ ?_ ?_
  · exact fun argument ha _ => (plain argument ha).name.of_nil
  · intro streamed argument ha
    refine ⟨(plain argument ha).name.of_nil, carried _ ?_⟩
    rw [making.support, if_pos streamed]
    simp
  · exact fun _ _ _ _ => trivial
  · trivial
  · refine ⟨fun one member => carried one ?_, fun c member =>
      ⟨isStreamed_of_openStream making.cased member, (says_literal c.message).of_nil⟩⟩
    rw [making.support]
    exact List.mem_append_left _ member

theorem fits_result {result : TypeHint} (h : Results operation mode result) : Fits [] result := by
  have none : Says [] "None" := by decide
  cases h with
  | nothing => exact none
  | items => exact (fits_ofShape _ _).withNull _
  | orNull => exact (fits_ofShape _ _).withNull _
  | value => exact fits_ofShape _ _

/-- The type that a method returns names the response object that the mode asks for. -/
theorem fits_return (carried : mode.support ⊆ support) {result : TypeHint} (h : Fits [] result) :
    Fits support (Operation.returnHint result mode) := by
  have inside : Fits support result := h.mono (List.nil_subset _)
  cases mode with
  | plain => exact inside
  | streamed => exact inside
  | wrapped =>
    have named : Says [.response] SupportClass.response.name := by decide
    exact ⟨named.of_mem (carried (by decide)), inside, trivial⟩
  | streamedWrapped =>
    have named : Says [.disposableResponse] SupportClass.disposableResponse.name := by decide
    exact ⟨named.of_mem (carried (by decide)), inside, trivial⟩

theorem says_methodSignature (made : operation.toMethod settings = .ok method)
    (dialect : Dialect) : Says method.support (method.signature dialect) := by
  have plain := isPlain_of_made made
  obtain ⟨names, declared, result, cases, making⟩ := Operation.toMethod_eq_ok made
  have name : Says [] method.name := by
    obtain ⟨raw, _, named⟩ := bind_eq_ok.mp making.named
    cases named
    rw [making.name]
    exact says_small (by decide) raw
  have carried : (operation.responseMode settings names).support ⊆ method.support := by
    rw [making.support]
    exact List.subset_append_left ..
  have returns : Says method.support (method.returnType.text (.inline dialect)) := by
    rw [making.returnType]
    exact says_hint _ _
      (fits_return carried (fits_result (Operation.resultHint_eq_ok making.resulted)))
  have arguments : Says [] (joined ", " ("self" :: method.arguments.map fun argument =>
      argument.signature (.inline dialect))) := by
    have self : Says [] "self" := by decide
    refine says_joined (by decide) (List.forall_mem_cons.mpr ⟨self, fun s member => ?_⟩)
    obtain ⟨argument, ha, rfl⟩ := List.mem_map.mp member
    exact says_signature (plain argument ha) _
  have opens : Closes [] "    async def " := by decide
  have begins : Joins [] "(" := by decide
  have ends : Joins [] ") -> " := by decide
  have closes : Joins [] ":" := by decide
  have called := (((opens.append name).join begins).append arguments).join ends
  exact ((called.of_nil.append returns).join closes.of_nil).toSays

theorem docstring_eq_ok {lines : List String} (h : method.docstring = .ok lines) :
    ∃ summary, lines = Docstring.lines bodyIndent summary method.deprecated := by
  unfold Method.docstring at h
  split at h
  next summary _ => exact ⟨summary, (Except.ok.inj h).symm⟩
  next =>
    split at h
    · cases h
    · exact ⟨"", (Except.ok.inj h).symm⟩

/-- The lines of a method name no support class but those that the method relies on. -/
theorem reads_method (made : operation.toMethod settings = .ok method) {dialect : Dialect}
    {overrides : Bool} {lines : List String} (h : method.lines dialect overrides = .ok lines) :
    Reads method.support lines := by
  obtain ⟨docstring, described, h⟩ := bind_eq_ok.mp h
  obtain ⟨steps, written, h⟩ := bind_eq_ok.mp h
  cases h
  obtain ⟨summary, same⟩ := docstring_eq_ok described
  have documented : Reads [] docstring := same ▸ reads_docstring summary method.deprecated
  have marked : Reads method.support (if overrides then ["    @override"] else []) := by
    cases overrides
    · exact .nil
    · have override : Says [] "    @override" := by decide
      exact override.of_nil.reads
  have body : Reads method.support steps.flatten :=
    reads_steps allowsBodies (fits_steps made) written
  have opened := (says_methodSignature made dialect).reads
  exact (marked.append (opened.append documented.of_nil)).append body

theorem reads_methodInterface (made : operation.toMethod settings = .ok method)
    {dialect : Dialect} {lines : List String} (h : method.interfaceLines dialect = .ok lines) :
    Reads method.support lines := by
  obtain ⟨docstring, described, h⟩ := bind_eq_ok.mp h
  cases h
  obtain ⟨summary, same⟩ := docstring_eq_ok described
  have documented : Reads [] docstring := same ▸ reads_docstring summary method.deprecated
  have opened := (says_methodSignature made dialect).reads
  have omitted : Says [] (bodyIndent ++ "...") := by decide
  exact (opened.append documented.of_nil).append omitted.of_nil.reads

end

end ApiBinding.Code
