import ApiBinding.Proofs.Code.LongLiteral
import ApiBinding.Proofs.Code.Method
import ApiBinding.Proofs.Code.OneLine
import ApiBinding.Proofs.Method.Request
import ApiBinding.Proofs.Module.Models

/-!
Lines of generated code: no text of a description ends a line early, wherever in a method or in the
declaration of a type it is written.
-/

namespace ApiBinding.Code

open Text (OneLine oneLine_append joined quoted)

section

variable {argument : Argument} {arguments : List Argument} {mode : ResponseMode}
  {style : TypeHint.Style} {s value : String}

theorem oneLine_indented (h : OneLine s) : OneLine (bodyIndent ++ s) :=
  oneLine_append.mpr ⟨oneLine_bodyIndent, h⟩

theorem oneLine_nat (n : Nat) : OneLine (toString n) := oneLine_of_quiet (quiet_nat n)

theorem oneLine_guarded (name : OneLine argument.name) (h : OneLine value) :
    OneLine (argument.guarded value) := by
  have fixed : OneLine " if " ∧ OneLine " is not None else None" := by decide
  unfold Argument.guarded
  split
  · simp only [oneLine_append, name, h, fixed, and_self]
  · exact h

theorem oneLine_assignment (name : OneLine argument.name) {target : String}
    (assigned : OneLine target) (h : OneLine value) :
    ∀ line ∈ argument.assignment target value, OneLine line := by
  have fixed : OneLine "[" ∧ OneLine "] = " ∧ OneLine "if " ∧ OneLine " is not None:" ∧
      OneLine "    " := by decide
  have sent := oneLine_quoted argument.sentName
  unfold Argument.assignment
  dsimp only
  split
  all_goals simp only [List.forall_mem_cons, List.not_mem_nil, false_implies, implies_true,
    oneLine_append, oneLine_bodyIndent, name, sent, assigned, h, fixed, and_self]

theorem oneLine_assignments (named : ∀ argument ∈ arguments, OneLine argument.name)
    {target : String} (assigned : OneLine target) {value : Argument → String}
    (h : ∀ argument ∈ arguments, OneLine (value argument)) :
    ∀ line ∈ arguments.flatMap fun argument => argument.assignment target (value argument),
      OneLine line := by
  intro line member
  obtain ⟨argument, given, member⟩ := List.mem_flatMap.mp member
  exact oneLine_assignment (named argument given) assigned (h argument given) line member

theorem oneLine_address (named : ∀ argument ∈ arguments, OneLine argument.name) (path : String) :
    OneLine (addressExpression path arguments) := by
  have fixed : OneLine "quote(str(" ∧ OneLine "), safe='')" := by decide
  refine (Text.oneLine_joined (by decide)).mpr (List.forall_mem_cons.mpr ⟨by decide, ?_⟩)
  intro s member
  obtain ⟨piece, inside, rfl⟩ := List.mem_map.mp member
  cases piece with
  | text cs => exact oneLine_quoted _
  | value argument =>
    have name := named argument (mem_of_mem_piecesFrom inside)
    simp only [PathTemplate.Piece.expression, oneLine_append, name, fixed, and_self]

theorem oneLine_headerLines (named : ∀ argument ∈ arguments, OneLine argument.name)
    (accept contentType : Option String) :
    ∀ line ∈ headerLines arguments accept contentType, OneLine line := by
  have fixed : OneLine "request_headers_: dict[str, str] = \x7b" ∧ OneLine "\x7d" ∧
      OneLine "'Accept': " ∧ OneLine "'Content-Type': " ∧ OneLine "str(" ∧ OneLine ")" := by decide
  unfold headerLines
  dsimp only
  rw [List.forall_mem_cons]
  constructor
  · have types : ∀ s ∈ (accept.map fun type => "'Accept': " ++ quoted type).toList ++
        (contentType.map fun type => "'Content-Type': " ++ quoted type).toList, OneLine s := by
      intro s member
      rcases List.mem_append.mp member with member | member
      all_goals
        obtain ⟨type, _, rfl⟩ := List.mem_map.mp (Option.toList_map ▸ member)
        simp only [oneLine_append, oneLine_quoted type, fixed, and_self]
    simp only [oneLine_append, oneLine_bodyIndent, oneLine_listed types, fixed, and_self]
  · refine oneLine_assignments named (by decide) fun argument given => ?_
    simp only [oneLine_append, named argument given, fixed, and_self]

theorem oneLine_requestLine (httpMethod : String) (viaFactory hasQuery hasContent : Bool) :
    OneLine (requestLine httpMethod viaFactory hasQuery hasContent) := by
  have fixed : OneLine "request_ = " ∧ OneLine "(" ∧ OneLine ")" := by decide
  have callee : OneLine (if viaFactory then "await self.create_http_request_async"
      else "self._transport.build_request") := by
    cases viaFactory <;> decide
  have given (on : Bool) {text : String} (h : OneLine text) :
      ∀ s ∈ if on then [text] else [], OneLine s := by
    cases on <;> simp [h]
  have arguments : ∀ s ∈ [quoted httpMethod, "url_"] ++ (if hasQuery then ["params=query_"] else [])
      ++ ["headers=request_headers_"] ++ (if hasContent then ["content=content_"] else []),
      OneLine s := by
    simp only [List.forall_mem_append, List.forall_mem_cons, List.not_mem_nil, false_implies,
      implies_true, and_true]
    exact ⟨⟨⟨⟨oneLine_quoted httpMethod, by decide⟩, given _ (by decide)⟩, by decide⟩,
      given _ (by decide)⟩
  unfold requestLine
  simp only [oneLine_append, oneLine_bodyIndent, callee, oneLine_listed arguments, fixed, and_self]

theorem oneLine_raise {message response result : String} (hmessage : OneLine message)
    (hresponse : OneLine response) (hresult : OneLine result) :
    OneLine (raiseText message response result) := by
  have fixed : OneLine "raise ApiException(" ∧ OneLine ", status_, " ∧ OneLine ", headers_, " ∧
      OneLine ")" := by decide
  unfold raiseText
  simp only [oneLine_append, hmessage, hresponse, hresult, fixed, and_self]

theorem oneLine_wrapped (h : OneLine value) (mode : ResponseMode) :
    OneLine (wrappedText value mode) := by
  have fixed : OneLine "ApiResponse(status_, headers_, " ∧ OneLine ")" := by decide
  unfold wrappedText
  split
  · simp only [oneLine_append, h, fixed, and_self]
  · exact h

theorem oneLine_streamResult (h : OneLine value) (mode : ResponseMode) :
    OneLine (StatusCase.streamResult mode value) := by
  have fixed : OneLine "DisposableApiResponse(status_, headers_, " ∧ OneLine ", response_)" := by
    decide
  unfold StatusCase.streamResult
  split
  · simp only [oneLine_append, h, fixed, and_self]
  · exact h

/-- The type that a result is cast to stands between quotes, so that its names do not matter. -/
theorem oneLine_cast (type : Option TypeHint) (style : TypeHint.Style) :
    OneLine (castText type style) := by
  have fixed : OneLine "cast(" ∧ OneLine "Any" ∧ OneLine ", result_)" := by decide
  cases type <;> simp only [castText, oneLine_append, oneLine_quoted, fixed, and_self]

theorem oneLine_decodeLines {message : String} (hmessage : OneLine message) :
    ∀ line ∈ StatusCase.decodeLines message, OneLine line := by
  have fixed : OneLine "data_ = await response_.aread()" ∧ OneLine "try:" ∧
      OneLine "    result_ = json.loads(data_) if data_ else None" ∧ OneLine "except ValueError:" ∧
      OneLine "    " ∧ OneLine " from None" := by decide
  have raised := oneLine_raise hmessage (by decide : OneLine "response_.text")
    (by decide : OneLine "None")
  simp only [StatusCase.decodeLines, List.forall_mem_cons, List.not_mem_nil, false_implies,
    implies_true, oneLine_append, raised, fixed, and_self]

theorem oneLine_statements (c : StatusCase) (mode : ResponseMode) (style : TypeHint.Style) :
    ∀ line ∈ c.statements mode style, OneLine line := by
  have message : OneLine c.message.literal := oneLine_literal c.message
  have none : OneLine "None" := by decide
  have text : OneLine "response_.text" := by decide
  have result : OneLine "result_" := by decide
  have returns {value : String} (h : OneLine value) : OneLine ("return " ++ value) :=
    oneLine_append.mpr ⟨by decide, h⟩
  have deeper {s : String} (h : OneLine s) : OneLine ("    " ++ s) :=
    oneLine_append.mpr ⟨by decide, h⟩
  have failEmpty := oneLine_raise message none none
  have value := oneLine_cast c.type style
  have decoded := oneLine_decodeLines (oneLine_quoted undecodableMessage)
  unfold StatusCase.statements
  dsimp only
  split
  next => exact List.forall_mem_singleton.mpr (returns (oneLine_wrapped none mode))
  next => exact List.forall_mem_singleton.mpr failEmpty
  next =>
    have bytes : OneLine "result_ = await response_.aread()" := by decide
    rw [List.forall_mem_cons, List.forall_mem_singleton]
    exact ⟨bytes, returns (oneLine_wrapped result mode)⟩
  next =>
    have opened : OneLine "result_ = JsonArrayStream(response_)" ∧
        OneLine "if not await result_.prime():" ∧ OneLine "dispose_response_ = False" := by decide
    simp only [List.forall_mem_cons, List.not_mem_nil, false_implies, implies_true, and_true]
    exact ⟨opened.1, opened.2.1, deeper failEmpty, opened.2.2,
      returns (oneLine_streamResult value mode)⟩
  next =>
    split
    next =>
      have reads : OneLine "await response_.aread()" := by decide
      rw [List.forall_mem_cons, List.forall_mem_singleton]
      exact ⟨reads, oneLine_raise message text none⟩
    next =>
      rw [List.forall_mem_append, List.forall_mem_singleton]
      exact ⟨oneLine_decodeLines message, oneLine_raise message text result⟩
  next =>
    have absent : OneLine "if result_ is None:" := by decide
    rw [List.forall_mem_append, List.forall_mem_cons, List.forall_mem_cons,
      List.forall_mem_singleton]
    exact ⟨decoded, absent, deeper failEmpty, returns (oneLine_wrapped value mode)⟩
  next =>
    rw [List.forall_mem_append, List.forall_mem_singleton]
    exact ⟨decoded, returns (oneLine_wrapped value mode)⟩

/-- A status is written as the number that it stands for. -/
theorem oneLine_condition (test : StatusTest) : OneLine test.condition := by
  have fixed : OneLine " <= status_ < " ∧ OneLine "status_ == " := by decide
  cases test with
  | hundred first => simp only [StatusTest.condition, oneLine_append, oneLine_nat, fixed, and_self]
  | code value =>
    have number := oneLine_of_quiet (quiet_int value)
    simp only [StatusTest.condition, oneLine_append, number, fixed, and_self]

theorem oneLine_caseLines {c : StatusCase} {lines : List String}
    (h : c.lines mode style = .ok lines) : ∀ line ∈ lines, OneLine line := by
  have indented {indent : String} (blank : OneLine indent) :
      ∀ line ∈ (c.statements mode style).map (indent ++ ·), OneLine line := by
    intro line member
    obtain ⟨statement, inside, rfl⟩ := List.mem_map.mp member
    exact oneLine_append.mpr ⟨blank, oneLine_statements c mode style statement inside⟩
  unfold StatusCase.lines at h
  dsimp only at h
  split at h
  · cases h
    exact indented (by decide)
  · split at h
    next test _ =>
      cases h
      have fixed : OneLine "            if " ∧ OneLine ":" := by decide
      rw [List.forall_mem_cons]
      refine ⟨?_, indented (by decide)⟩
      simp only [oneLine_append, oneLine_condition test, fixed, and_self]
    next => cases h

theorem oneLine_responseLines {cases : List StatusCase} {lines : List String}
    (h : responseLines mode cases style = .ok lines) : ∀ line ∈ lines, OneLine line := by
  obtain ⟨caseLines, hcases, h⟩ := bind_eq_ok.mp h
  have opened : ∀ line ∈ ["        try:", "            status_ = response_.status_code",
      "            headers_ = response_.headers"], OneLine line := by decide
  have closed : ∀ line ∈ ["        finally:", "            if dispose_response_:",
      "                await response_.aclose()"], OneLine line := by decide
  cases h
  simp only [List.forall_mem_append]
  refine ⟨⟨⟨opened, ?_⟩, ?_⟩, closed⟩
  · intro line member
    obtain ⟨block, inside, member⟩ := List.mem_flatten.mp member
    obtain ⟨c, _, written⟩ := exists_of_forall₂ (mapM_eq_ok.mp hcases) inside
    exact oneLine_caseLines written line member
  · split
    · simp
    · have fixed : OneLine "            await response_.aread()" ∧ OneLine "            " ∧
          OneLine "f" := by decide
      have unexpected : OneLine ("f" ++ quoted undeclaredStatusMessage) :=
        oneLine_append.mpr ⟨fixed.2.2, oneLine_quoted _⟩
      have raised := oneLine_raise unexpected (by decide : OneLine "response_.text")
        (by decide : OneLine "None")
      simp only [List.forall_mem_cons, List.not_mem_nil, false_implies, implies_true,
        oneLine_append, raised, fixed, and_self]

theorem oneLine_step {step : Step} (named : ∀ argument ∈ step.arguments, OneLine argument.name)
    {lines : List String} (h : step.lines style = .ok lines) : ∀ line ∈ lines, OneLine line := by
  have assigned {lead s : String} (opens : OneLine lead) (h : OneLine s) :
      ∀ line ∈ [bodyIndent ++ lead ++ s], OneLine line := by
    simp only [List.forall_mem_singleton, oneLine_append, oneLine_bodyIndent, opens, h, and_self]
  cases step with
  | url path arguments =>
    cases h
    exact assigned (by decide) (oneLine_address named path)
  | query arguments =>
    cases h
    rw [List.forall_mem_cons]
    exact ⟨oneLine_indented (by decide), oneLine_assignments named (by decide) named⟩
  | headers arguments accept contentType =>
    cases h
    exact oneLine_headerLines named accept contentType
  | wholeBody argument format =>
    cases h
    have name := named argument (List.mem_singleton_self argument)
    have fixed : OneLine "json.dumps(list(" ∧ OneLine "))" ∧ OneLine "json.dumps(" ∧
        OneLine ")" := by decide
    refine assigned (by decide) ?_
    cases format with
    | json => exact oneLine_guarded name (by simp only [oneLine_append, name, fixed, and_self])
    | jsonList => exact oneLine_guarded name (by simp only [oneLine_append, name, fixed, and_self])
    | binary => exact name
  | streamedBody argument =>
    cases h
    have name := named argument (List.mem_singleton_self argument)
    have fixed : OneLine "JsonArrayStreamContent(" ∧ OneLine ")" := by decide
    refine assigned (by decide) (oneLine_guarded name ?_)
    simp only [oneLine_append, name, fixed, and_self]
  | request httpMethod viaFactory hasQuery hasContent =>
    cases h
    rw [List.forall_mem_singleton]
    exact oneLine_requestLine httpMethod viaFactory hasQuery hasContent
  | send =>
    cases h
    decide
  | response mode cases result => exact oneLine_responseLines h

theorem oneLine_docstring (summary : String) (deprecated : Bool) :
    ∀ line ∈ Docstring.lines bodyIndent summary deprecated, OneLine line := by
  have quotes : OneLine "\"\"\"" := by decide
  have inside := @Text.oneLine_of_mem_lines (Docstring.escaped (Docstring.content summary deprecated))
  unfold Docstring.lines
  split
  · exact nofun
  next line lines =>
    rw [lines, List.forall_mem_singleton] at inside
    simp only [List.forall_mem_singleton, oneLine_append, oneLine_bodyIndent, quotes, inside,
      and_self]
  next line rest _ lines =>
    rw [lines, List.forall_mem_cons] at inside
    simp only [List.forall_mem_append, List.forall_mem_cons, List.forall_mem_map,
      List.not_mem_nil, false_implies, implies_true, and_true, oneLine_append, oneLine_bodyIndent,
      quotes, inside, true_and]
    exact fun line member => oneLine_furtherLine (inside.2 line member)

end

/-- Whether all that is written for an argument in a signature is one line. -/
structure IsInline (argument : Argument) : Prop where
  name : OneLine argument.name
  type : NamedInline argument.type
  default : ∀ text, argument.default = some text → OneLine text

theorem isInline_argument {streamsBody : Bool} {parameter : Parameter} {raw sentName : String}
    {argument : Argument} (made : Operation.argument streamsBody parameter
      (Identifier.ofRaw .parameter raw) sentName = .ok argument) : IsInline argument := by
  have name := oneLine_made .parameter raw
  obtain ⟨hint, hhint, made⟩ := bind_eq_ok.mp made
  have type : NamedInline hint := by
    rw [(Declaration.ofShape?_eq_ok.mp hhint).2]
    exact namedInline_ofShape _ _
  dsimp only at made
  split at made
  · cases made
    exact ⟨name, type, nofun⟩
  · split at made
    next literal written =>
      cases made
      refine ⟨name, type, fun text h => ?_⟩
      cases h
      unfold Operation.literalDefault? at written
      split at written
      all_goals cases written
      exact oneLine_scalar _
    next =>
      cases made
      refine ⟨name, type.withNull true, fun text h => ?_⟩
      cases h
      exact by decide

theorem oneLine_argument {argument : Argument} (inline : IsInline argument)
    (style : TypeHint.Style) : OneLine (argument.signature style) := by
  have fixed : OneLine ": " ∧ OneLine " = " := by decide
  have type := oneLine_hint style argument.type inline.type
  unfold Argument.signature
  dsimp only
  split
  next default given =>
    simp only [oneLine_append, inline.name, type, inline.default default given, fixed, and_self]
  next => simp only [oneLine_append, inline.name, type, fixed, and_self]

section

open Operation (Making Results)

variable {operation : Operation} {settings : Settings} {method : Method} {mode : ResponseMode}

theorem isInline_of_made (made : operation.toMethod settings = .ok method) :
    ∀ argument ∈ method.arguments, IsInline argument := by
  obtain ⟨names, declared, result, cases, making⟩ := Operation.toMethod_eq_ok made
  intro argument ha
  rw [making.arguments, Operation.mem_requiredFirst] at ha
  obtain ⟨_, _, _, hmade⟩ := Operation.exists_of_argumentsFrom making.argued argument ha
  exact isInline_argument hmade

theorem mem_arguments_of_step (made : operation.toMethod settings = .ok method) :
    ∀ step ∈ method.steps, ∀ argument ∈ step.arguments, argument ∈ method.arguments := by
  have located (location : Location) :
      ∀ argument ∈ Operation.argumentsIn location method.arguments, argument ∈ method.arguments :=
    fun argument ha => Operation.mem_argumentsIn ha
  obtain ⟨names, declared, result, cases, making⟩ := Operation.toMethod_eq_ok made
  refine making.forall_steps (located .path) (located .query) (located .header) ?_ ?_ ?_ ?_ ?_
  · exact fun argument ha _ => List.forall_mem_singleton.mpr ha
  · exact fun _ argument ha => List.forall_mem_singleton.mpr ha
  · exact fun _ _ _ _ => nofun
  · exact nofun
  · exact nofun

theorem namedInline_result {result : TypeHint} (h : Results operation mode result) :
    NamedInline result := by
  cases h with
  | nothing => exact List.forall_mem_singleton.mpr (by decide)
  | items => exact (namedInline_ofShape _ _).withNull _
  | orNull => exact (namedInline_ofShape _ _).withNull _
  | value => exact namedInline_ofShape _ _

theorem namedInline_return {result : TypeHint} (h : NamedInline result) (mode : ResponseMode) :
    NamedInline (Operation.returnHint result mode) := by
  have within {name : String} (one : OneLine name) :
      NamedInline (.applied (.generic name) [result] false) :=
    h.applied (fun other same => by cases same; exact one) false
  cases mode with
  | plain => exact h
  | streamed => exact h
  | wrapped => exact within (by decide)
  | streamedWrapped => exact within (by decide)

theorem oneLine_signature (made : operation.toMethod settings = .ok method) (dialect : Dialect) :
    OneLine (method.signature dialect) := by
  have inline := isInline_of_made made
  obtain ⟨names, declared, result, cases, making⟩ := Operation.toMethod_eq_ok made
  have name : OneLine method.name := by
    obtain ⟨raw, _, named⟩ := bind_eq_ok.mp making.named
    cases named
    rw [making.name]
    exact oneLine_made .method raw
  have returns : OneLine (method.returnType.text (.inline dialect)) := by
    rw [making.returnType]
    exact oneLine_hint _ _ (namedInline_return
      (namedInline_result (Operation.resultHint_eq_ok making.resulted)) _)
  have arguments : OneLine (joined ", " ("self" :: method.arguments.map fun argument =>
      argument.signature (.inline dialect))) := by
    refine oneLine_listed (List.forall_mem_cons.mpr ⟨by decide, fun s member => ?_⟩)
    obtain ⟨argument, ha, rfl⟩ := List.mem_map.mp member
    exact oneLine_argument (inline argument ha) _
  have fixed : OneLine "    async def " ∧ OneLine "(" ∧ OneLine ") -> " ∧ OneLine ":" := by decide
  unfold Method.signature
  simp only [oneLine_append, name, returns, arguments, fixed, and_self]

theorem oneLine_documented {lines : List String} (h : method.docstring = .ok lines) :
    ∀ line ∈ lines, OneLine line := by
  obtain ⟨summary, same⟩ := docstring_eq_ok h
  rw [same]
  exact oneLine_docstring summary method.deprecated

theorem oneLine_method (made : operation.toMethod settings = .ok method) {dialect : Dialect}
    {overrides : Bool} {lines : List String} (h : method.lines dialect overrides = .ok lines) :
    ∀ line ∈ lines, OneLine line := by
  obtain ⟨docstring, described, h⟩ := bind_eq_ok.mp h
  obtain ⟨steps, written, h⟩ := bind_eq_ok.mp h
  cases h
  have marked : ∀ line ∈ if overrides then ["    @override"] else [], OneLine line := by
    cases overrides <;> decide
  rw [List.forall_mem_append, List.forall_mem_append, List.forall_mem_cons]
  refine ⟨⟨marked, oneLine_signature made dialect, oneLine_documented described⟩, ?_⟩
  intro line member
  obtain ⟨block, inside, member⟩ := List.mem_flatten.mp member
  obtain ⟨step, given, lines⟩ := exists_of_forall₂ (mapM_eq_ok.mp written) inside
  refine oneLine_step (fun argument ha => ?_) lines line member
  exact (isInline_of_made made argument (mem_arguments_of_step made step given argument ha)).name

theorem oneLine_methodInterface (made : operation.toMethod settings = .ok method)
    {dialect : Dialect} {lines : List String} (h : method.interfaceLines dialect = .ok lines) :
    ∀ line ∈ lines, OneLine line := by
  obtain ⟨docstring, described, h⟩ := bind_eq_ok.mp h
  cases h
  rw [List.forall_mem_append, List.forall_mem_cons, List.forall_mem_singleton]
  exact ⟨⟨oneLine_signature made dialect, oneLine_documented described⟩,
    oneLine_indented (by decide)⟩

end

section

variable {shape : Shape} {declaration : Declaration}

theorem namedInline_hints (describes : Declaration.Describes shape declaration.body) :
    ∀ hint ∈ declaration.hints, NamedInline hint := by
  obtain ⟨name, source, body⟩ := declaration
  cases describes with
  | enumeration => exact nofun
  | synonym empty =>
    refine List.forall_mem_singleton.mpr (NamedInline.applied ?_ (fun name same => by cases same) _)
    cases shape.additional with
    | none => exact nofun
    | some value => exact namedInline_ofShape _ _
  | record listed =>
    intro hint member
    obtain ⟨field, _, rfl⟩ : ∃ field ∈ shape.fields,
        TypeHint.ofShape .response field.type = hint := by
      simpa [Declaration.hints, Declaration.recordFields] using member
    exact namedInline_ofShape _ _

theorem oneLine_fieldLine {field : FieldOf TypeHint} (typed : NamedInline field.type) :
    OneLine (Declaration.fieldLine field) := by
  have fixed : OneLine "Required[" ∧ OneLine "]" ∧ OneLine "        " ∧ OneLine ": " ∧
      OneLine "," := by decide
  have type := oneLine_hint .declared field.type typed
  have name := oneLine_scalar field.name
  unfold Declaration.fieldLine
  cases field.required <;>
    simp only [oneLine_append, name, type, fixed, and_self, if_true, if_false, Bool.false_eq_true]

/-- The declaration of a type is written in lines of their own, whatever its fields and its members
are called. -/
theorem oneLine_declaration {all : Shape → Prop} (made : Declaration.MadeFrom all declaration) :
    ∀ line ∈ declaration.lines, OneLine line := by
  obtain ⟨shape, _, _, made⟩ := made
  obtain ⟨named, _, describes⟩ := Declaration.ofMeeting_eq_ok made
  have typed := namedInline_hints describes
  have name : OneLine declaration.name := named ▸ Identifier.oneLine_type declaration.source
  have empty : OneLine "" := by decide
  unfold Declaration.lines
  split
  next members _ =>
    have fixed : OneLine " = Literal[" ∧ OneLine "]" := by decide
    simp only [List.forall_mem_cons, List.not_mem_nil, false_implies, implies_true,
      oneLine_append, name, oneLine_members, fixed, empty, and_self]
  next type body =>
    have type := oneLine_hint .declared type (typed type (by simp [Declaration.hints, body]))
    have assigns : OneLine " = " := by decide
    simp only [List.forall_mem_cons, List.not_mem_nil, false_implies, implies_true,
      oneLine_append, name, type, assigns, empty, and_self]
  next fields body =>
    have each : ∀ line ∈ fields.map Declaration.fieldLine, OneLine line := by
      intro line member
      obtain ⟨field, among, rfl⟩ := List.mem_map.mp member
      refine oneLine_fieldLine (typed field.type ?_)
      rw [Declaration.hints, body]
      exact List.mem_map_of_mem among
    have fixed : OneLine " = TypedDict(" ∧ OneLine "    " ∧ OneLine "," ∧ OneLine "    \x7b" ∧
        OneLine "    \x7d," ∧ OneLine "    total=False," ∧ OneLine ")" := by decide
    simp only [List.forall_mem_append, List.forall_mem_cons, List.not_mem_nil, false_implies,
      implies_true, oneLine_append, oneLine_quoted, name, fixed, empty, and_self, and_true, true_and]
    exact each

end

/-- Whether all lines that are written for a method, and for the types that it declares, are one line
each. -/
structure IsUnbroken (method : Method) : Prop where
  interface : ∀ {dialect lines}, method.interfaceLines dialect = .ok lines →
    ∀ line ∈ lines, OneLine line
  lines : ∀ {dialect overrides lines}, method.lines dialect overrides = .ok lines →
    ∀ line ∈ lines, OneLine line
  declarations : ∀ line ∈ method.declarations.flatMap Declaration.lines, OneLine line

theorem oneLine_collected {shapes : List (Option Shape)} {declarations : List Declaration}
    (collected : Declaration.collect shapes = .ok declarations) :
    ∀ line ∈ declarations.flatMap Declaration.lines, OneLine line := by
  have walk := Declaration.walk_shapes (shapes.filterMap id) []
  rw [← Declaration.collect_eq_foldlM, collected] at walk
  have made : ∀ declaration ∈ declarations, Declaration.MadeFrom (fun _ => True) declaration :=
    walk.made (fun _ _ _ _ => trivial) (fun _ _ => trivial) nofun
  intro line member
  obtain ⟨declaration, among, member⟩ := List.mem_flatMap.mp member
  exact oneLine_declaration (made declaration among) line member

theorem isUnbroken_of_made {operation : Operation} {settings : Settings} {method : Method}
    (made : operation.toMethod settings = .ok method) : IsUnbroken method where
  interface := oneLine_methodInterface made
  lines := oneLine_method made
  declarations := oneLine_collected (Operation.collected_of_toMethod made)

/-- Whatever texts a description holds, no line that is written for one of its methods, for the types
that such a method declares or for those that its module declares goes on in a further line; and so
it is for the types that any shapes declare. -/
theorem lines_unbroken (description : Description) (settings : Settings) :
    (∀ operation ∈ description.operations, ∀ method,
      operation.toMethod settings = .ok method → IsUnbroken method) ∧
    (∀ before clients, (Client.ofDescription description settings before).result = .ok clients →
      (∀ client ∈ clients, ∀ method ∈ client.methods, IsUnbroken method) ∧
        ∀ line ∈ (Module.declared clients).flatMap Declaration.lines, OneLine line) ∧
    ∀ shapes declarations, Declaration.collect shapes = .ok declarations →
      ∀ line ∈ declarations.flatMap Declaration.lines, OneLine line := by
  refine ⟨fun _ _ _ => isUnbroken_of_made, fun before clients built => ⟨?_, ?_⟩,
    fun _ _ => oneLine_collected⟩
  · intro client hc method hm
    obtain ⟨operation, _, made⟩ := Module.exists_operation_of_mem_methods built hc hm
    exact isUnbroken_of_made made
  · intro line member
    obtain ⟨declaration, among, member⟩ := List.mem_flatMap.mp member
    exact oneLine_declaration (Module.made_of_declared built among) line member

/-- An operation whose texts are full of characters that end lines. -/
def lineEnding : Operation where
  tag := "Pets\nimport os"
  name := .text "Get\u2028Pet"
  method := "get\n"
  path := "/pets\r/\x7bid\x7d"
  parameters := [
    { name := .text "id", location := .path, type := .primitive .string false },
    { name := .text "kind\x85", location := .query, default := .text "a\nb",
      type := .enumeration none [.text "a\nb"] false }]
  responses := [
    { status := "200",
      type := some (.object (some "Pet\x0b") [⟨.text "na\nme", .primitive .string false, true⟩] none
        false) },
    { status := "404", description := .text "none\x1cfound" }]
  summary := .text "One\x1dtwo"

theorem lines_unbroken_ending :
    ∃ method lines, lineEnding.toMethod .standard = .ok method ∧
      method.lines (.ofVersion 3 12) false = .ok lines ∧
      lines.take 5 =
        ["    async def get_pet(self, id: str, kind_: Literal['a\\nb'] = 'a\\nb') -> Pet:",
          "        \"\"\"One", "        two", "        \"\"\"",
          "        url_ = self.base_url.rstrip('/') + '/pets\\r/' + quote(str(id), safe='')"] ∧
      (∀ line ∈ lines, OneLine line) ∧
      ∀ line ∈ method.declarations.flatMap Declaration.lines, OneLine line := by
  obtain ⟨method, made⟩ : ∃ method, lineEnding.toMethod .standard = .ok method :=
    exists_eq_ok (by decide +kernel)
  have seen : ((lineEnding.toMethod .standard).toOption.bind fun method =>
      (method.lines (.ofVersion 3 12) false).toOption).map (List.take 5) =
        some ["    async def get_pet(self, id: str, kind_: Literal['a\\nb'] = 'a\\nb') -> Pet:",
          "        \"\"\"One", "        two", "        \"\"\"",
          "        url_ = self.base_url.rstrip('/') + '/pets\\r/' + quote(str(id), safe='')"] := by
    decide +kernel
  rw [made] at seen
  obtain ⟨lines, written, first⟩ := Option.map_eq_some_iff.mp seen
  have unbroken := (lines_unbroken { operations := [lineEnding] } .standard).1 lineEnding
    (List.mem_singleton_self lineEnding) method made
  have written : method.lines (.ofVersion 3 12) false = .ok lines := eq_ok_of_toOption written
  exact ⟨method, lines, made, written, first, unbroken.lines written, unbroken.declarations⟩

end ApiBinding.Code
