import ApiBinding.Proofs.Module.Names

/-!
The names that the fixed text of a module relies on: those that its head binds, the support classes,
and what the lines read that do not depend on a description. A made name is one of them only if it
is that of an exception which is always bound.
-/

namespace ApiBinding

open Identifier (ofRaw styled singles isShielded)

namespace Code

/-- The names in lines of which the characters are given, and the mode after them. -/
def readSpelled : Mode → List (List Char) → List String × Mode
  | mode, [] => ([], mode)
  | mode, cs :: rest =>
    let (names, last) := read mode cs
    let (more, next) := endLine last
    let (others, final) := readSpelled next rest
    (names ++ more ++ others, final)

/-- Lines with the characters that they consist of. -/
inductive Spelled : List String → List (List Char) → Prop
  | nil : Spelled [] []
  | cons {line : String} {cs : List Char} {lines : List String} {rest : List (List Char)}
      (here : line = String.ofList cs) (others : Spelled lines rest) :
      Spelled (line :: lines) (cs :: rest)

theorem Spelled.append {first second : List String} {css dss : List (List Char)}
    (h : Spelled first css) (h' : Spelled second dss) : Spelled (first ++ second) (css ++ dss) := by
  induction h with
  | nil => exact h'
  | cons here _ ih => exact .cons here ih

theorem spelled_append {s t : String} {cs ds : List Char} (h : s = String.ofList cs)
    (h' : t = String.ofList ds) : s ++ t = String.ofList (cs ++ ds) := by
  rw [h, h', String.ofList_append]

theorem Spelled.readLines_eq {lines : List String} {css : List (List Char)} (h : Spelled lines css)
    (mode : Mode) : readLines mode lines = readSpelled mode css := by
  induction h generalizing mode with
  | nil => rfl
  | cons here _ ih =>
    subst here
    simp only [readLines, readLine, String.toList_ofList, readSpelled, ih]

/-- The exceptions that are always bound and that the fixed text reads. -/
def exceptionNames : List String := ["Exception", "StopAsyncIteration", "ValueError"]

/-- Whether no made name can be the given one, unless it is one of the exceptions. -/
def isReserved (name : String) : Bool :=
  (isShielded name || exceptionNames.contains name) && Client.isNoInterface name

/-- Lines that end in code and read reserved names only, with the given exceptions among them. -/
structure Reserves (exceptions lines : List String) : Prop where
  closed : (readLines (.plain []) lines).2 = .plain []
  reserved : ∀ name ∈ names lines, isReserved name = true
  reads : ∀ name ∈ exceptions, name ∈ names lines

theorem Reserves.append {exceptions others first second : List String}
    (h : Reserves exceptions first) (h' : Reserves others second) :
    Reserves (exceptions ++ others) (first ++ second) where
  closed := by rw [readLines_append, h.closed, h'.closed]
  reserved name member :=
    ((mem_names_append h.closed).mp member).elim (h.reserved name) (h'.reserved name)
  reads name member := (mem_names_append h.closed).mpr
    ((List.mem_append.mp member).imp (h.reads name) (h'.reads name))

/-- Whether reading came to an end in code and to reserved names only, with the given exceptions. -/
def isReserving (exceptions : List String) (result : List String × Mode) : Bool :=
  decide (result.2 = .plain []) && result.1.all isReserved && exceptions.all result.1.contains

theorem Spelled.reserves {lines : List String} {css : List (List Char)} {exceptions : List String}
    (h : Spelled lines css)
    (read : isReserving exceptions (readSpelled (.plain []) css) = true) :
    Reserves exceptions lines := by
  rw [← h.readLines_eq, isReserving, Bool.and_eq_true, Bool.and_eq_true, decide_eq_true_eq] at read
  obtain ⟨⟨closed, reserved⟩, reads⟩ := read
  exact ⟨closed, List.all_eq_true.mp reserved,
    fun name member => List.contains_iff_mem.mp (List.all_eq_true.mp reads name member)⟩

/-- A hint with all the names that hints are made of. -/
def blankHint : TypeHint :=
  .applied .list ([.string, .integer, .number, .boolean, .binary, .any].map (.ofPrimitive · false)
    ++ [.applied .mapping [.literal [] true] false, .applied .stream [] false,
      .applied .producer [] false]) false

/-- An argument that may be left out, of which nothing else is known. -/
def blankArgument : Argument where
  name := ""
  sentName := "x"
  location := .query
  type := blankHint
  required := false
  default := some "None"

/-- A step of every kind, the last without cases. -/
def blankSteps : List Step :=
  [.url "\x7bx\x7d" [blankArgument], .query [blankArgument],
    .headers [blankArgument] (some "") (some ""), .wholeBody blankArgument .jsonList,
    .streamedBody blankArgument, .request "" true true true, .request "" false true true, .send,
    .response .plain [] .none]

def stepLines : List String :=
  blankSteps.flatMap fun step => (step.lines .declared).toOption.getD []

/-- The cases that have statements of their own. -/
def blankCases : List (CaseAction × ResponseMode) :=
  [(.decodeValue, .wrapped), (.returnBytes, .wrapped), (.failDeclared, .wrapped),
    (.openStream, .streamedWrapped)]

def caseLines : List String :=
  blankCases.flatMap fun (action, mode) =>
    let c : StatusCase := { status := "2XX", action, type := some (.any false) }
    (c.lines mode .declared).toOption.getD []

/-- A client with a method that takes no steps. -/
def blankClient (constructor : Constructor) : Client where
  tag := ""
  className := ""
  interfaceName := ""
  methods := [{
    name := "", rawName := "", arguments := [blankArgument], returnType := .any false
    responseMode := .plain, requestMode := .none, steps := [], support := [] }]
  baseClass := none
  baseInterface := none
  constructor
  buildsInterface := true

/-- The declarations of a record, of a name for a mapping and of an enumeration. -/
def blankDeclarations : List Declaration :=
  [.record [{ name := .text "", type := .any false, required := true }],
    .synonym (.any false), .enumeration []].map fun body => { name := "", source := "", body }

def frameLines : List String :=
  let dialect : Dialect := ⟨true, false, true, true⟩
  let client := blankClient ⟨none, false, true, .owned, usualTransport⟩
  blankDeclarations.flatMap Declaration.lines
    ++ (client.interfaceLines dialect).toOption.getD []
    ++ (client.classLines dialect).toOption.getD []
    ++ (blankClient ⟨some "", true, false, .injected, ""⟩).constructorLines
    ++ (blankClient ⟨some "", false, false, .injected, ""⟩).constructorLines

/-- The lines of declarations, clients and methods, each kind once, with nothing of a description
in them. -/
def fixedLines : List String := frameLines ++ stepLines ++ caseLines

theorem frameLines_eq : frameLines =
    [" = TypedDict(",
      "    '',",
      "    \x7b",
      "        '': Required[Any],",
      "    \x7d,",
      "    total=False,",
      ")",
      "",
      "",
      " = Any",
      "",
      "",
      " = Literal[]",
      "",
      ""]
    ++ ["class (Protocol):",
      "    async def (self, : list[str, int, float, bool, bytes, Any, dict[str, "
        ++ "Optional[Literal[]]], AsyncIterator[], AsyncIterable[]] = None) -> Any:",
      "        ..."]
    ++ ["class ():",
      "    base_url: str = ''",
      "",
      "    def __init__(self) -> None:",
      "        super().__init__()",
      "        self._transport = httpx.AsyncClient()",
      "",
      "    async def aclose(self) -> None:",
      "        await self._transport.aclose()",
      "",
      "    async def __aenter__(self) -> :",
      "        return self",
      "",
      "    async def __aexit__(self, *args: Any) -> None:",
      "        await self.aclose()",
      "",
      "    @override",
      "    async def (self, : list[str, int, float, bool, bytes, Any, dict[str, "
        ++ "Optional[Literal[]]], AsyncIterator[], AsyncIterable[]] = None) -> Any:"]
    ++ ["    def __init__(self, configuration: , transport: ) -> None:",
      "        super().__init__(configuration)",
      "        self._transport = transport"]
    ++ ["    def __init__(self, configuration: , transport: ) -> None:",
      "        self.configuration = configuration",
      "        self._transport = transport"] := by
  unfold frameLines
  repeat' refine congrArg₂ (· ++ ·) ?_ ?_
  all_goals decide +kernel

theorem stepLines_eq : stepLines =
    [["        url_ = self.base_url.rstrip('/') + quote(str(), safe='')"],
      ["        query_: dict[str, Any] = \x7b\x7d",
        "        if  is not None:",
        "            query_['x'] = "],
      ["        request_headers_: dict[str, str] = \x7b'Accept': '', 'Content-Type': ''\x7d",
        "        if  is not None:",
        "            request_headers_['x'] = str()"],
      ["        content_ = json.dumps(list()) if  is not None else None"],
      ["        content_ = JsonArrayStreamContent() if  is not None else None"],
      ["        request_ = await self.create_http_request_async('', url_, params=query_, "
        ++ "headers=request_headers_, content=content_)"],
      ["        request_ = self._transport.build_request('', url_, params=query_, "
        ++ "headers=request_headers_, content=content_)"],
      ["        response_ = await self._transport.send(request_, stream=True)",
        "        dispose_response_ = True"],
      ["        try:",
        "            status_ = response_.status_code",
        "            headers_ = response_.headers",
        "            await response_.aread()",
        "            raise ApiException(f'The HTTP status code of the response was not expected "
          ++ "(\x7bstatus_\x7d).', status_, response_.text, headers_, None)",
        "        finally:",
        "            if dispose_response_:",
        "                await response_.aclose()"]].flatten := by
  rw [stepLines, List.flatMap_def]
  refine congrArg List.flatten ?_
  simp only [blankSteps, List.map_cons, List.map_nil, List.cons.injEq, and_true]
  and_intros <;> decide +kernel

theorem caseLines_eq : caseLines =
    [["            if 200 <= status_ < 300:",
        "                data_ = await response_.aread()",
        "                try:",
        "                    result_ = json.loads(data_) if data_ else None",
        "                except ValueError:",
        "                    raise ApiException('Could not deserialize the response body.', "
          ++ "status_, response_.text, headers_, None) from None",
        "                if result_ is None:",
        "                    raise ApiException(None, status_, None, headers_, None)",
        "                return ApiResponse(status_, headers_, cast('Any', result_))"],
      ["            if 200 <= status_ < 300:",
        "                result_ = await response_.aread()",
        "                return ApiResponse(status_, headers_, result_)"],
      ["            if 200 <= status_ < 300:",
        "                data_ = await response_.aread()",
        "                try:",
        "                    result_ = json.loads(data_) if data_ else None",
        "                except ValueError:",
        "                    raise ApiException(None, status_, response_.text, headers_, None) "
          ++ "from None",
        "                raise ApiException(None, status_, response_.text, headers_, result_)"],
      ["            if 200 <= status_ < 300:",
        "                result_ = JsonArrayStream(response_)",
        "                if not await result_.prime():",
        "                    raise ApiException(None, status_, None, headers_, None)",
        "                dispose_response_ = False",
        "                return DisposableApiResponse(status_, headers_, cast('Any', result_), "
          ++ "response_)"]].flatten := by
  rw [caseLines, List.flatMap_def]
  refine congrArg List.flatten ?_
  simp only [blankCases, List.map_cons, List.map_nil, List.cons.injEq, and_true]
  and_intros <;> decide +kernel

theorem reserves_fixedLines : Reserves [] fixedLines := by
  have append {first second : List String} (h : Reserves [] first) (h' : Reserves [] second) :
    Reserves [] (first ++ second) := h.append h'
  rw [fixedLines, frameLines_eq, stepLines_eq, caseLines_eq]
  simp only [List.flatten_cons, List.flatten_nil]
  repeat' refine append ?_ ?_
  all_goals
    apply Spelled.reserves
    · repeat' apply Spelled.cons
      all_goals
        first
          | with_reducible exact Spelled.nil
          | with_reducible rfl
          | apply spelled_append <;> with_reducible rfl
    · decide +kernel

/-- The support classes read all of the exceptions and nothing else that a made name can be. -/
theorem reserves_support : Reserves exceptionNames (SupportClass.linesOf SupportClass.all) := by
  have blocks : Reserves (["Exception"] ++ ([] ++ ([] ++ (["StopAsyncIteration", "ValueError"] ++
      ([] ++ []))))) (SupportClass.exceptionLines ++ ["", ""] ++ (SupportClass.responseLines
        ++ ["", ""] ++ (SupportClass.disposableResponseLines ++ ["", ""]
        ++ (SupportClass.arrayStreamLines ++ ["", ""] ++ (SupportClass.arrayStreamContentLines
        ++ ["", ""] ++ []))))) := by
    unfold SupportClass.exceptionLines SupportClass.responseLines
      SupportClass.disposableResponseLines SupportClass.arrayStreamLines
      SupportClass.arrayStreamContentLines
    repeat' refine Reserves.append ?_ ?_
    all_goals
      apply Spelled.reserves
      · repeat' apply Spelled.append
        all_goals repeat' apply Spelled.cons
        all_goals
          first
            | with_reducible exact Spelled.nil
            | with_reducible rfl
            | apply spelled_append <;> with_reducible rfl
      · decide +kernel
  exact blocks

end Code

namespace Module

open Code (exceptionNames isReserved fixedLines names)

/-- The names that the fixed text of a module relies on. -/
def reliedOn (dialect : Dialect) : List String :=
  Header.boundNames dialect ++ SupportClass.all.map SupportClass.name ++ names fixedLines
    ++ names (SupportClass.linesOf SupportClass.all)

theorem reserved_of_reliedOn {dialect : Dialect} {name : String} (h : name ∈ reliedOn dialect) :
    isReserved name = true := by
  have support : ∀ name ∈ SupportClass.all.map SupportClass.name, isReserved name = true := by
    decide
  rcases List.mem_append.mp h with h | h
  · rcases List.mem_append.mp h with h | h
    · rcases List.mem_append.mp h with h | h
      · obtain ⟨shielded, other⟩ := Header.reserved_of_bound dialect name h
        rw [isReserved, shielded, other]
        rfl
      · exact support name h
    · exact Code.reserves_fixedLines.reserved name h
  · exact Code.reserves_support.reserved name h

theorem reliedOn_of_exception {name : String} (h : name ∈ exceptionNames) (dialect : Dialect) :
    name ∈ reliedOn dialect :=
  List.mem_append_right _ (Code.reserves_support.reads name h)

/-- The words of a raw name, before anything is added to keep it apart. -/
def inWords (raw : String) : String := String.ofList (styled .type (singles raw.toList))

theorem freed_eq_exception {name : String} (h : name ∈ exceptionNames) (start : String) :
    Identifier.freed .type start = name ↔ start = name := by
  have free : ∀ name ∈ exceptionNames, Identifier.isForbidden .type name = false ∧
      ¬(Identifier.freeingSuffix .type).toList <:+ name.toList := by decide
  unfold Identifier.freed
  split
  next taken =>
    constructor
    · rintro rfl
      exact absurd (by simp) (free _ h).2
    · rintro rfl
      rw [(free _ h).1] at taken
      cases taken
  next => exact .rfl

theorem wellStarted_eq_exception {name : String} (h : name ∈ exceptionNames) (word : List Char) :
    Identifier.wellStarted .type word = name ↔ String.ofList word = name := by
  have other : ∀ name ∈ exceptionNames, name ≠ "" ∧ name ≠ Identifier.fallbackName .type ∧
      name.toList.head?.any Char.isDigit = false ∧
      ¬(Identifier.digitLead .type).toList <+: name.toList := by decide
  obtain ⟨filled, noFallback, noDigit, noLead⟩ := other name h
  unfold Identifier.wellStarted
  split
  next => exact ⟨fun same => absurd same.symm noFallback, fun same => absurd same.symm filled⟩
  next c rest =>
    split
    next digit =>
      constructor
      · rintro rfl
        exact absurd (by simp) noLead
      · rintro rfl
        simp [digit] at noDigit
    next => exact .rfl

theorem ofRaw_eq_exception {name : String} (h : name ∈ exceptionNames) (raw : String) :
    ofRaw .type raw = name ↔ inWords raw = name :=
  (freed_eq_exception h _).trans (wellStarted_eq_exception h _)

theorem ofRaw_captures_iff (dialect : Dialect) (raw name : String) :
    ofRaw .type raw = name ∧ name ∈ reliedOn dialect ↔
      inWords raw = name ∧ name ∈ exceptionNames := by
  constructor
  · rintro ⟨made, read⟩
    have reserved := reserved_of_reliedOn read
    rw [isReserved, Bool.and_eq_true, Bool.or_eq_true, List.contains_iff_mem] at reserved
    have exception := reserved.1.resolve_left fun shielded =>
      Identifier.ofRaw_ne_of_isShielded shielded raw made
    exact ⟨(ofRaw_eq_exception exception raw).mp made, exception⟩
  · rintro ⟨words, exception⟩
    exact ⟨(ofRaw_eq_exception exception raw).mpr words, reliedOn_of_exception exception dialect⟩

/-- The name of a type or of a class is one that the fixed text relies on exactly if its words are
the name of an exception that is always bound. The name of an interface never is one. -/
theorem captured_iff_exception (dialect : Dialect) (raw template tag name : String) :
    (ofRaw .type raw = name ∧ name ∈ reliedOn dialect ↔
      inWords raw = name ∧ name ∈ exceptionNames) ∧
    (Settings.clientNameFor template tag = name ∧ name ∈ reliedOn dialect ↔
      inWords (Text.replaced "\x7btag\x7d" (if tag = "" then "" else ofRaw .type tag) template)
        = name ∧ name ∈ exceptionNames) ∧
    Settings.clientNameFor template tag ++ Client.interfaceEnding ∉ reliedOn dialect := by
  refine ⟨ofRaw_captures_iff dialect raw name, ?_, fun read => ?_⟩
  · exact ofRaw_captures_iff dialect _ name
  · have reserved := reserved_of_reliedOn read
    rw [isReserved, Bool.and_eq_true] at reserved
    exact Client.interface_ne reserved.2 _ rfl

/-- A record called ValueError is declared under that name, which the method that answers with it
reads as that of the exception. -/
theorem value_error_captured :
    ∃ made : Parts, (generate (answeringRecord "Pet" "ValueError") .standard).result =
        .ok (Module.text made.lines) ∧
      "ValueError" ∈ made.declarations.flatMap Code.bound ∧
      ∃ block ∈ made.clients, ∃ line ∈ block, "ValueError" ∈ names [line] := by
  obtain ⟨description, hd⟩ : ∃ description, description = answeringRecord "Pet" "ValueError" :=
    ⟨_, rfl⟩
  obtain ⟨made, hmade⟩ : ∃ made, partsOf description .standard = .ok made :=
    exists_eq_ok (by rw [hd]; decide +kernel)
  have both : (partsOf description .standard).toOption.all (fun made =>
      (made.declarations.flatMap Code.bound).contains "ValueError"
        && made.clients.any (·.contains "                except ValueError:")) = true := by
    rw [hd]
    decide +kernel
  rw [hmade] at both
  simp only [Except.toOption, Option.all_some, Bool.and_eq_true, List.any_eq_true,
    List.contains_iff_mem] at both
  obtain ⟨bound, block, inside, line⟩ := both
  exact ⟨made, hd ▸ generate_eq_text hmade, bound, block, inside, _, line, by decide +kernel⟩

end Module

end ApiBinding
