import ApiBinding.Method.Render
import ApiBinding.Proofs.Code.Hint
import ApiBinding.Proofs.Outcome

/-!
What the bodies of methods name: the words that all bodies are written with, whole numbers, their
arguments and the support classes that they rely on.
-/

namespace ApiBinding.Code

open Text (quoted joined)

/-- The names that bodies assign and read, whatever the operation. -/
def bodyNames : List String :=
  ["self", "url_", "quote", "str", "query_", "dict", "Any", "request_headers_", "content_", "json",
    "list", "request_", "response_", "dispose_response_", "status_", "headers_", "result_", "data_",
    "cast", "ValueError"]

/-- The words of bodies that stand for no variable: the labels of arguments in calls, and the mark
of a formatted text. -/
def bodyLabels : List String := ["safe", "params", "headers", "content", "stream", "f"]

/-- The words that bodies are written with, whatever the operation. -/
def bodyWords : List String := bodyNames ++ bodyLabels ++ Identifier.keywords

/-- The functions that bodies make a text, or a list of items, of an argument with. -/
def converters : List String := ["str", "list", SupportClass.arrayStreamContent.name]

/-- The words that are left to bodies in which nothing is converted. -/
def plainWords : List String := bodyWords.filter fun name => !converters.contains name

/-- Whether the words that all bodies are written with are allowed, and whole numbers. -/
structure AllowsBodies (allowed : String → Prop) : Prop where
  words : ∀ name ∈ bodyWords, allowed name
  numbers : ∀ n : Nat, allowed (toString n)

/-- Whether the words of bodies in which nothing is converted are allowed, and whole numbers. -/
structure AllowsPlain (allowed : String → Prop) : Prop where
  words : ∀ name ∈ plainWords, allowed name
  numbers : ∀ n : Nat, allowed (toString n)

section

variable {allowed : String → Prop} {argument : Argument} {arguments : List Argument}
  {mode : ResponseMode} {style : TypeHint.Style} {s value : String}

theorem AllowsBodies.fixed (allows : AllowsBodies allowed)
    (h : SaysOnly (· ∈ bodyWords) s) : SaysOnly allowed s := h.weaken allows.words

theorem AllowsBodies.closes (allows : AllowsBodies allowed)
    (h : ClosesOnly (· ∈ bodyWords) s) : ClosesOnly allowed s := h.weaken allows.words

theorem AllowsBodies.joins (allows : AllowsBodies allowed)
    (h : JoinsOnly (· ∈ bodyWords) s) : JoinsOnly allowed s := h.weaken allows.words

theorem AllowsBodies.plain (allows : AllowsBodies allowed) : AllowsPlain allowed :=
  ⟨fun name member => allows.words name (List.mem_filter.mp member).1, allows.numbers⟩

theorem AllowsPlain.fixed (allows : AllowsPlain allowed)
    (h : SaysOnly (· ∈ plainWords) s) : SaysOnly allowed s := h.weaken allows.words

theorem AllowsPlain.closes (allows : AllowsPlain allowed)
    (h : ClosesOnly (· ∈ plainWords) s) : ClosesOnly allowed s := h.weaken allows.words

theorem AllowsPlain.joins (allows : AllowsPlain allowed)
    (h : JoinsOnly (· ∈ plainWords) s) : JoinsOnly allowed s := h.weaken allows.words

section

variable (allows : AllowsPlain allowed)
include allows

theorem says_nat (n : Nat) : SaysOnly allowed (toString n) := by
  refine says_of_isAlphanum (List.all_eq_true.mpr fun c member => ?_) (allows.numbers n)
  rw [Identifier.isAlphanum_eq, Numeral.isDigit_of_mem_toString member, Bool.or_true]

theorem says_int (i : Int) : SaysOnly allowed (toString i) := by
  cases i with
  | ofNat n => exact says_nat allows n
  | negSucc n =>
    have minus : ClosesOnly allowed "-" := allows.closes (by decide)
    exact minus.append (says_nat allows (n + 1))

theorem says_indented (h : SaysOnly allowed s) : SaysOnly allowed (bodyIndent ++ s) := by
  have indent : ClosesOnly allowed bodyIndent := allows.closes (by decide)
  exact indent.append h

theorem says_guarded (name : SaysOnly allowed argument.name) (h : SaysOnly allowed value) :
    SaysOnly allowed (argument.guarded value) := by
  have condition : JoinsOnly allowed " if " := allows.joins (by decide)
  have otherwise : SaysOnly allowed " is not None else None" := allows.fixed (by decide)
  unfold Argument.guarded
  split
  · exact ((h.join condition).append name).append (by decide) otherwise
  · exact h

theorem says_assignment (name : SaysOnly allowed argument.name) {target : String}
    (assigned : SaysOnly allowed target) (h : SaysOnly allowed value) :
    ∀ line ∈ argument.assignment target value, SaysOnly allowed line := by
  have opens : JoinsOnly allowed "[" := allows.joins (by decide)
  have closes : JoinsOnly allowed "] = " := allows.joins (by decide)
  have statement : SaysOnly allowed (target ++ "[" ++ quoted argument.sentName ++ "] = " ++ value) :=
    (((assigned.join opens).append (says_quoted _)).join closes).append h
  unfold Argument.assignment
  dsimp only
  split
  · have condition : ClosesOnly allowed (bodyIndent ++ "if ") := allows.closes (by decide)
    have present : JoinsOnly allowed " is not None:" := allows.joins (by decide)
    have deeper : ClosesOnly allowed (bodyIndent ++ "    ") := allows.closes (by decide)
    simp only [List.forall_mem_cons, List.not_mem_nil, false_implies, implies_true, and_true]
    exact ⟨((condition.append name).join present).toSays, deeper.append statement⟩
  · simpa using says_indented allows statement

theorem says_assignments (named : ∀ argument ∈ arguments, SaysOnly allowed argument.name)
    {target : String} (assigned : SaysOnly allowed target) {value : Argument → String}
    (h : ∀ argument ∈ arguments, SaysOnly allowed (value argument)) :
    ∀ line ∈ arguments.flatMap fun argument => argument.assignment target (value argument),
      SaysOnly allowed line := by
  intro line member
  obtain ⟨argument, given, member⟩ := List.mem_flatMap.mp member
  exact says_assignment allows (named argument given) assigned (h argument given) line member

theorem says_request (httpMethod : String) (viaFactory hasQuery hasContent : Bool) :
    SaysOnly allowed (requestLine httpMethod viaFactory hasQuery hasContent) := by
  have assigns : ClosesOnly allowed (bodyIndent ++ "request_ = ") := allows.closes (by decide)
  have opens : JoinsOnly allowed "(" := allows.joins (by decide)
  have closes : JoinsOnly allowed ")" := allows.joins (by decide)
  have callee : SaysOnly allowed (if viaFactory then "await self.create_http_request_async"
      else "self._transport.build_request") := by
    cases viaFactory
    · exact allows.fixed (by decide)
    · exact allows.fixed (by decide)
  unfold requestLine
  dsimp only
  have called := (assigns.append callee).join opens
  refine ((called.append (says_joined (allows.joins (by decide)) ?_)).join closes).toSays
  have given (on : Bool) {text : String} (h : SaysOnly allowed text) :
      ∀ s ∈ if on then [text] else [], SaysOnly allowed s := by
    cases on <;> simp [h]
  simp only [List.forall_mem_append, List.forall_mem_cons, List.not_mem_nil, false_implies,
    implies_true, and_true]
  exact ⟨⟨⟨⟨says_quoted httpMethod, allows.fixed (by decide)⟩,
    given _ (allows.fixed (by decide))⟩, allows.fixed (by decide)⟩,
    given _ (allows.fixed (by decide))⟩

end

open PathTemplate in
theorem mem_of_mem_piecesFrom {argument : Argument} {text : List Char} {parts : List Part}
    (h : Piece.value argument ∈ piecesFrom arguments text parts) : argument ∈ arguments := by
  have noText (text : List Char) : Piece.value argument ∉ textPiece text := by
    unfold textPiece
    split <;> simp
  fun_induction piecesFrom arguments text parts with
  | case1 => exact absurd h (noText _)
  | case2 text cs rest ih => exact ih h
  | case3 text name rest found known ih =>
    rcases List.mem_append.mp h with h | h
    · exact absurd h (noText _)
    · rcases List.mem_cons.mp h with h | h
      · cases h
        exact List.mem_reverse.mp (List.mem_of_find?_eq_some known)
      · exact ih h
  | case4 text name rest _ ih => exact ih h

section

variable (allows : AllowsBodies allowed)
include allows

theorem says_address (named : ∀ argument ∈ arguments, SaysOnly allowed argument.name)
    (path : String) : SaysOnly allowed (addressExpression path arguments) := by
  have base : SaysOnly allowed "self.base_url.rstrip('/')" := allows.fixed (by decide)
  refine says_joined (allows.joins (by decide)) ?_
  rw [List.forall_mem_cons]
  refine ⟨base, fun s member => ?_⟩
  obtain ⟨piece, inside, rfl⟩ := List.mem_map.mp member
  cases piece with
  | text cs => exact says_quoted _
  | value argument =>
    have opens : ClosesOnly allowed "quote(str(" := allows.closes (by decide)
    have closes : SaysOnly allowed "), safe='')" := allows.fixed (by decide)
    have name := named argument (mem_of_mem_piecesFrom inside)
    exact (opens.append name).append (by decide) closes

theorem says_wholeBody (name : SaysOnly allowed argument.name) (format : BodyFormat) :
    SaysOnly allowed (wholeBodyExpression argument format) := by
  have dumps : ClosesOnly allowed "json.dumps(" := allows.closes (by decide)
  have closes : JoinsOnly allowed ")" := allows.joins (by decide)
  have dumpsList : ClosesOnly allowed "json.dumps(list(" := allows.closes (by decide)
  have closesList : JoinsOnly allowed "))" := allows.joins (by decide)
  cases format with
  | json => exact says_guarded allows.plain name ((dumps.append name).join closes).toSays
  | jsonList => exact says_guarded allows.plain name ((dumpsList.append name).join closesList).toSays
  | binary => exact name

theorem says_streamedBody (name : SaysOnly allowed argument.name)
    (content : allowed SupportClass.arrayStreamContent.name) :
    SaysOnly allowed (streamedBodyExpression argument) := by
  have called : SaysOnly allowed "JsonArrayStreamContent" := says_of_isAlphanum (by decide) content
  have opens : JoinsOnly allowed "(" := allows.joins (by decide)
  have closes : JoinsOnly allowed ")" := allows.joins (by decide)
  have text : streamedBodyExpression argument =
      argument.guarded ("JsonArrayStreamContent" ++ "(" ++ argument.name ++ ")") := rfl
  rw [text]
  exact says_guarded allows.plain name (((called.join opens).append name).join closes).toSays

theorem says_headerLines (named : ∀ argument ∈ arguments, SaysOnly allowed argument.name)
    (accept contentType : Option String) :
    ∀ line ∈ headerLines arguments accept contentType, SaysOnly allowed line := by
  have opens : ClosesOnly allowed (bodyIndent ++ "request_headers_: dict[str, str] = \x7b") :=
    allows.closes (by decide)
  have closes : JoinsOnly allowed "\x7d" := allows.joins (by decide)
  have accepted : ClosesOnly allowed "'Accept': " := allows.closes (by decide)
  have typed : ClosesOnly allowed "'Content-Type': " := allows.closes (by decide)
  unfold headerLines
  dsimp only
  rw [List.forall_mem_cons]
  refine ⟨((opens.append (says_joined (allows.joins (by decide)) ?_)).join closes).toSays, ?_⟩
  · intro s member
    rcases List.mem_append.mp member with member | member
    · obtain ⟨type, _, rfl⟩ := List.mem_map.mp (Option.toList_map ▸ member)
      exact accepted.append (says_quoted type)
    · obtain ⟨type, _, rfl⟩ := List.mem_map.mp (Option.toList_map ▸ member)
      exact typed.append (says_quoted type)
  · refine says_assignments allows.plain named (allows.fixed (by decide)) fun argument given => ?_
    have opens : ClosesOnly allowed "str(" := allows.closes (by decide)
    have closes : JoinsOnly allowed ")" := allows.joins (by decide)
    exact ((opens.append (named argument given)).join closes).toSays

end

end

theorem exception_mem (mode : ResponseMode) : .exception ∈ mode.support := by
  cases mode <;> decide

section

variable {allowed : String → Prop} {mode : ResponseMode} {style : TypeHint.Style} {s value : String}
  (allows : AllowsPlain allowed)
include allows

theorem says_raise (exception : allowed SupportClass.exception.name)
    {message response result : String} (hmessage : SaysOnly allowed message)
    (hresponse : SaysOnly allowed response) (hresult : SaysOnly allowed result) :
    SaysOnly allowed (raiseText message response result) := by
  have raises : ClosesOnly allowed "raise " := allows.closes (by decide)
  have called : SaysOnly allowed "ApiException" := says_of_isAlphanum (by decide) exception
  have opens : JoinsOnly allowed "(" := allows.joins (by decide)
  have status : JoinsOnly allowed ", status_, " := allows.joins (by decide)
  have headers : JoinsOnly allowed ", headers_, " := allows.joins (by decide)
  have closes : JoinsOnly allowed ")" := allows.joins (by decide)
  exact ((((((((raises.append called).join opens).append hmessage).join status).append
    hresponse).join headers).append hresult).join closes).toSays

/-- A result stands in a response object of the given class. -/
theorem says_responseObject {class_ last : String} (named : allowed class_)
    (word : class_.toList.all Char.isAlphanum = true) (closes : JoinsOnly allowed last)
    (h : SaysOnly allowed value) :
    SaysOnly allowed (class_ ++ "(status_, headers_, " ++ value ++ last) := by
  have opens : JoinsOnly allowed "(status_, headers_, " := allows.joins (by decide)
  exact ((((says_of_isAlphanum word named).join opens).append h).join closes).toSays

theorem says_wrapped (carried : ∀ support ∈ mode.support, allowed support.name)
    (h : SaysOnly allowed value) : SaysOnly allowed (wrappedText value mode) := by
  unfold wrappedText
  split
  next wrapped =>
    have named : allowed SupportClass.response.name := carried _ (by rw [wrapped]; decide)
    exact says_responseObject allows named (by decide) (allows.joins (by decide)) h
  next => exact h

theorem says_streamResult (carried : ∀ support ∈ mode.support, allowed support.name)
    (h : SaysOnly allowed value) : SaysOnly allowed (StatusCase.streamResult mode value) := by
  unfold StatusCase.streamResult
  split
  next wrapped =>
    have named : allowed SupportClass.disposableResponse.name := carried _ (by rw [wrapped]; decide)
    exact says_responseObject allows named (by decide) (allows.joins (by decide)) h
  next => exact h

/-- The type of a result stands between quotes where the result is cast to it. -/
theorem says_cast (type : Option TypeHint) (style : TypeHint.Style) :
    SaysOnly allowed (castText type style) := by
  have opens : ClosesOnly allowed "cast(" := allows.closes (by decide)
  have closes : JoinsOnly allowed ", result_)" := allows.joins (by decide)
  refine ((opens.append ?_).join closes).toSays
  cases type with
  | none => exact allows.fixed (s := "Any") (by decide)
  | some type => exact says_quoted _

theorem says_return (h : SaysOnly allowed value) : SaysOnly allowed ("return " ++ value) := by
  have opens : ClosesOnly allowed "return " := allows.closes (by decide)
  exact opens.append h

theorem says_deeper (h : SaysOnly allowed s) : SaysOnly allowed ("    " ++ s) := by
  have indent : ClosesOnly allowed "    " := allows.closes (by decide)
  exact indent.append h

theorem says_decodeLines (exception : allowed SupportClass.exception.name) {message : String}
    (hmessage : SaysOnly allowed message) :
    ∀ line ∈ StatusCase.decodeLines message, SaysOnly allowed line := by
  have opened : ∀ line ∈ ["data_ = await response_.aread()", "try:",
      "    result_ = json.loads(data_) if data_ else None", "except ValueError:"],
      SaysOnly (· ∈ plainWords) line := by decide
  have cause : SaysOnly allowed " from None" := allows.fixed (by decide)
  have text : SaysOnly allowed "response_.text" := allows.fixed (by decide)
  have none : SaysOnly allowed "None" := allows.fixed (by decide)
  have raised := says_raise allows exception hmessage text none
  intro line member
  have split : line ∈ ["data_ = await response_.aread()", "try:",
      "    result_ = json.loads(data_) if data_ else None", "except ValueError:"] ++
      ["    " ++ raiseText message "response_.text" "None" ++ " from None"] := member
  rcases List.mem_append.mp split with member | member
  · exact allows.fixed (opened line member)
  · obtain rfl := List.mem_singleton.mp member
    exact (says_deeper allows raised).append (by decide) cause

/-- Only a stream of items is opened by a class of its own. -/
theorem says_statements (carried : ∀ support ∈ mode.support, allowed support.name) {c : StatusCase}
    (streams : c.action = .openStream → mode.isStreamed = true)
    (message : SaysOnly allowed c.message.literal) (style : TypeHint.Style) :
    ∀ line ∈ c.statements mode style, SaysOnly allowed line := by
  have exception : allowed SupportClass.exception.name := carried _ (exception_mem mode)
  have value : SaysOnly allowed (castText c.type style) := says_cast allows c.type style
  have undecodable : SaysOnly allowed (quoted undecodableMessage) := says_quoted _
  have text : SaysOnly allowed "response_.text" := allows.fixed (by decide)
  have none : SaysOnly allowed "None" := allows.fixed (by decide)
  have result : SaysOnly allowed "result_" := allows.fixed (by decide)
  have reads : SaysOnly allowed "await response_.aread()" := allows.fixed (by decide)
  have failEmpty := says_raise allows exception message none none
  unfold StatusCase.statements
  dsimp only
  split
  next => simpa using says_return allows (says_wrapped allows carried none)
  next => simpa using failEmpty
  next =>
    have bytes : SaysOnly allowed "result_ = await response_.aread()" := allows.fixed (by decide)
    simpa using ⟨bytes, says_return allows (says_wrapped allows carried result)⟩
  next opens =>
    have stream : .arrayStream ∈ mode.support := by
      have streamed := streams opens
      revert streamed
      cases mode <;> decide
    have called : SaysOnly allowed "JsonArrayStream" :=
      says_of_isAlphanum (by decide) (carried _ stream)
    have assigns : ClosesOnly allowed "result_ = " := allows.closes (by decide)
    have given : SaysOnly allowed "(response_)" := allows.fixed (by decide)
    have opened : SaysOnly allowed ("result_ = " ++ "JsonArrayStream" ++ "(response_)") :=
      (assigns.append called).append (by decide) given
    have primed : SaysOnly allowed "if not await result_.prime():" := allows.fixed (by decide)
    have kept : SaysOnly allowed "dispose_response_ = False" := allows.fixed (by decide)
    simp only [List.forall_mem_cons, List.not_mem_nil, false_implies, implies_true, and_true]
    exact ⟨opened, primed, says_deeper allows failEmpty, kept,
      says_return allows (says_streamResult allows carried value)⟩
  next =>
    split
    next => simpa using ⟨reads, says_raise allows exception message text none⟩
    next =>
      rw [List.forall_mem_append]
      exact ⟨says_decodeLines allows exception message,
        by simpa using says_raise allows exception message text result⟩
  next =>
    have absent : SaysOnly allowed "if result_ is None:" := allows.fixed (by decide)
    rw [List.forall_mem_append]
    exact ⟨says_decodeLines allows exception undecodable, by
      simpa using ⟨absent, says_deeper allows failEmpty,
        says_return allows (says_wrapped allows carried value)⟩⟩
  next =>
    rw [List.forall_mem_append]
    exact ⟨says_decodeLines allows exception undecodable,
      by simpa using says_return allows (says_wrapped allows carried value)⟩

theorem says_condition (test : StatusTest) : SaysOnly allowed test.condition := by
  cases test with
  | hundred first =>
    have between : JoinsOnly allowed " <= status_ < " := allows.joins (by decide)
    exact ((says_nat allows first).join between).append (says_nat allows (first + 100))
  | code value =>
    have equals : ClosesOnly allowed "status_ == " := allows.closes (by decide)
    exact equals.append (says_int allows value)

theorem says_caseLines (carried : ∀ support ∈ mode.support, allowed support.name) {c : StatusCase}
    (streams : c.action = .openStream → mode.isStreamed = true)
    (message : SaysOnly allowed c.message.literal) {lines : List String}
    (h : c.lines mode style = .ok lines) : ∀ line ∈ lines, SaysOnly allowed line := by
  have statements := says_statements allows carried streams message style
  have indented {indent : String} (blank : ClosesOnly allowed indent) :
      ∀ line ∈ (c.statements mode style).map (indent ++ ·), SaysOnly allowed line := by
    intro line member
    obtain ⟨statement, inside, rfl⟩ := List.mem_map.mp member
    exact blank.append (statements statement inside)
  unfold StatusCase.lines at h
  dsimp only at h
  split at h
  · cases h
    exact indented (allows.closes (by decide))
  · split at h
    next test _ =>
      cases h
      have opens : ClosesOnly allowed "            if " := allows.closes (by decide)
      have closes : JoinsOnly allowed ":" := allows.joins (by decide)
      rw [List.forall_mem_cons]
      exact ⟨((opens.append (says_condition allows test)).join closes).toSays,
        indented (allows.closes (by decide))⟩
    next => cases h

theorem says_responseLines (carried : ∀ support ∈ mode.support, allowed support.name)
    {cases : List StatusCase}
    (fits : ∀ c ∈ cases, (c.action = .openStream → mode.isStreamed = true) ∧
      SaysOnly allowed c.message.literal)
    {lines : List String} (h : responseLines mode cases style = .ok lines) :
    ∀ line ∈ lines, SaysOnly allowed line := by
  obtain ⟨caseLines, hcases, h⟩ := bind_eq_ok.mp h
  have opened : ∀ line ∈ ["        try:", "            status_ = response_.status_code",
      "            headers_ = response_.headers"], SaysOnly (· ∈ plainWords) line := by decide
  have closed : ∀ line ∈ ["        finally:", "            if dispose_response_:",
      "                await response_.aclose()"], SaysOnly (· ∈ plainWords) line := by decide
  have read : SaysOnly allowed "            await response_.aread()" := allows.fixed (by decide)
  have text : SaysOnly allowed "response_.text" := allows.fixed (by decide)
  have none : SaysOnly allowed "None" := allows.fixed (by decide)
  have unexpected : SaysOnly allowed ("f" ++ quoted undeclaredStatusMessage) :=
    says_quoted_after (by decide) (fun name member => allows.words name (by
      obtain rfl : name = "f" := by simpa [found, rootOf] using member
      decide)) _
  have raised := says_raise allows (carried _ (exception_mem mode)) unexpected text none
  have indent : ClosesOnly allowed "            " := allows.closes (by decide)
  cases h
  simp only [List.forall_mem_append]
  refine ⟨⟨⟨fun line member => allows.fixed (opened line member), ?_⟩, ?_⟩,
    fun line member => allows.fixed (closed line member)⟩
  · intro line member
    obtain ⟨block, inside, member⟩ := List.mem_flatten.mp member
    obtain ⟨c, given, written⟩ := exists_of_forall₂ (mapM_eq_ok.mp hcases) inside
    exact says_caseLines allows carried (fits c given).1 (fits c given).2 written line member
  · split
    · simp
    · simpa using ⟨read, indent.append raised⟩

end

/-- Whether what differs between steps of one kind is allowed: the names of arguments, the support
classes and the messages. -/
def StepFits (allowed : String → Prop) : Step → Prop
  | .url _ arguments => ∀ argument ∈ arguments, SaysOnly allowed argument.name
  | .query arguments => ∀ argument ∈ arguments, SaysOnly allowed argument.name
  | .headers arguments _ _ => ∀ argument ∈ arguments, SaysOnly allowed argument.name
  | .wholeBody argument _ => SaysOnly allowed argument.name
  | .streamedBody argument =>
    SaysOnly allowed argument.name ∧ allowed SupportClass.arrayStreamContent.name
  | .request .. => True
  | .send => True
  | .response mode cases _ =>
    (∀ support ∈ mode.support, allowed support.name) ∧
      ∀ c ∈ cases, (c.action = .openStream → mode.isStreamed = true) ∧
        SaysOnly allowed c.message.literal

theorem says_step {allowed : String → Prop} (allows : AllowsBodies allowed) {step : Step}
    (fits : StepFits allowed step) {style : TypeHint.Style} {lines : List String}
    (h : step.lines style = .ok lines) : ∀ line ∈ lines, SaysOnly allowed line := by
  have assigned {lead s : String} (opens : ClosesOnly (· ∈ bodyWords) (bodyIndent ++ lead))
      (h : SaysOnly allowed s) : ∀ line ∈ [bodyIndent ++ lead ++ s], SaysOnly allowed line := by
    simpa using (allows.closes opens).append h
  cases step with
  | url path arguments =>
    cases h
    exact assigned (by decide) (says_address allows fits path)
  | query arguments =>
    cases h
    have opened : SaysOnly allowed (bodyIndent ++ "query_: dict[str, Any] = \x7b\x7d") :=
      allows.fixed (by decide)
    rw [List.forall_mem_cons]
    exact ⟨opened, says_assignments allows.plain fits (allows.fixed (by decide)) fits⟩
  | headers arguments accept contentType =>
    cases h
    exact says_headerLines allows fits accept contentType
  | wholeBody argument format =>
    cases h
    exact assigned (by decide) (says_wholeBody allows fits format)
  | streamedBody argument =>
    cases h
    exact assigned (by decide) (says_streamedBody allows fits.1 fits.2)
  | request httpMethod viaFactory hasQuery hasContent =>
    cases h
    simpa using says_request allows.plain httpMethod viaFactory hasQuery hasContent
  | send =>
    cases h
    have sent : ∀ line ∈
        [bodyIndent ++ "response_ = await self._transport.send(request_, stream=True)",
          bodyIndent ++ "dispose_response_ = True"], SaysOnly (· ∈ bodyWords) line := by decide
    exact fun line member => allows.fixed (sent line member)
  | response mode cases result => exact says_responseLines allows.plain fits.1 fits.2 h

/-- What steps are written with is allowed if what differs between them is. -/
theorem reads_steps {allowed : String → Prop} (allows : AllowsBodies allowed) {steps : List Step}
    (fits : ∀ step ∈ steps, StepFits allowed step) {style : TypeHint.Style}
    {blocks : List (List String)} (h : steps.mapM (Step.lines style) = .ok blocks) :
    ReadsOnly allowed blocks.flatten := by
  refine ReadsOnly.flatten fun block member => reads_of_lines ?_
  obtain ⟨step, given, lines⟩ := exists_of_forall₂ (mapM_eq_ok.mp h) member
  exact says_step allows (fits step given) lines

end ApiBinding.Code
