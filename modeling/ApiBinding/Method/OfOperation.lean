import ApiBinding.Declaration.Collect
import ApiBinding.Method.Naming
import ApiBinding.NameTable

/-!
Methods made from operations. The response mode follows from the settings and the shape of the
result, the request mode from the settings and the shape of the body.
-/

namespace ApiBinding.Operation

def missingBodyMessage : String := "Response content was null which was not expected."

def undescribedErrorMessage : String := "A server side error occurred."

def jsonMediaType : String := "application/json"

def binaryMediaType : String := "application/octet-stream"

def streamsResponse (operation : Operation) (settings : Settings) (names : Names) : Bool :=
  MethodReference.lists settings.streamedResponses names.pairs && operation.hasStreamableResponse

def wrapsResponse (settings : Settings) (names : Names) : Bool :=
  settings.wrapResponses
    && (settings.wrappedMethods.isEmpty
      || MethodReference.lists settings.wrappedMethods names.pairs)

def streamsRequest (operation : Operation) (settings : Settings) (names : Names) : Bool :=
  MethodReference.lists settings.streamedRequests names.pairs && operation.hasStreamableBody

/-- The literal that a default is written as; null, bytes, dates, lists and maps are not. -/
def literalDefault? : Value → Option String
  | .scalar .null => none
  | .scalar (.bytes _) => none
  | .scalar (.moment _) => none
  | .scalar s => some s.literal
  | _ => none

/-- The argument for a parameter. An optional one without a literal default may be null. -/
def argument (streamsBody : Bool) (parameter : Parameter) (name sentName : String) :
    Except Failure Argument := do
  let context : TypeHint.Context :=
    if parameter.location = .body then { usage := .body, streamsBody }
    else { usage := .parameter }
  let type ← TypeHint.ofShape? context parameter.type
  let location := parameter.location
  if parameter.required || decide (location = .path) then
    return { name, sentName, location, type, required := true }
  else
    match literalDefault? parameter.default with
    | some literal =>
      return { name, sentName, location, type, required := false, default := some literal }
    | none =>
      let type := type.withNull true
      return { name, sentName, location, type, required := false, default := some "None" }

/-- The arguments for parameters, of which no two may have one name; `taken` holds the names of
those before. -/
def argumentsFrom (scope : NameScope) (streamsBody : Bool) (taken : NameTable) :
    List Parameter → Except Failure (List Argument)
  | [] => .ok []
  | parameter :: rest => do
    let sentName ← parameter.name.asText
    let name := Identifier.ofRaw .parameter sentName
    match taken.source? name with
    | some first => throw (.collision scope name first sentName)
    | none =>
      let argument ← argument streamsBody parameter name sentName
      return argument :: (← argumentsFrom scope streamsBody (taken ++ [(name, sentName)]) rest)

/-- The parameters that become arguments: all but the bodies after the first. -/
def usedParameters (body : Bool) : List Parameter → List Parameter
  | [] => []
  | parameter :: rest =>
    if parameter.location = .body then
      if body then usedParameters body rest else parameter :: usedParameters true rest
    else parameter :: usedParameters body rest

def requiredFirst (arguments : List Argument) : List Argument :=
  arguments.filter (·.required) ++ arguments.filter fun argument => !argument.required

/-- The type of the result, before it is put into a response object. -/
def resultHint (operation : Operation) (mode : ResponseMode) : Except Failure TypeHint :=
  match operation.primary? with
  | none => .ok TypeHint.none
  | some primary =>
    match primary.type with
    | none => .ok TypeHint.none
    | some shape => do
      let type ← TypeHint.ofShape?
        { usage := .response, streamsResult := mode.isStreamed } shape
      if mode.isStreamed then return type.withNull false
      else if primary.nullable || operation.successes.any (·.type.isNone) then
        return type.withNull true
      else return type

def returnHint (result : TypeHint) : ResponseMode → TypeHint
  | .wrapped => .applied (.generic SupportClass.response.name) [result] false
  | .streamedWrapped => .applied (.generic SupportClass.disposableResponse.name) [result] false
  | _ => result

def caseForSuccess (mode : ResponseMode) (response : Response) : Except Failure StatusCase :=
  let status := Text.upper response.status
  match response.type with
  | none =>
    if mode.isStreamed then
      .ok { status, action := .failEmpty, message := .text missingBodyMessage }
    else .ok { status, action := .returnNothing }
  | some shape => do
    if mode.isStreamed then
      let type ← TypeHint.ofShape? { usage := .response, streamsResult := true } shape
      let type := type.withNull false
      return { status, action := .openStream, type, message := .text missingBodyMessage }
    else
      let type ← TypeHint.ofShape? .response shape
      if shape.isBytes then return { status, action := .returnBytes, type }
      else if response.nullable then
        return { status, action := .decodeOptional, type := type.withNull true }
      else return { status, action := .decodeValue, type, message := .text missingBodyMessage }

def caseForError (response : Response) : Except Failure StatusCase := do
  let type ← response.type.mapM (TypeHint.ofShape? .response)
  return {
    status := response.statusKey, action := .failDeclared, type
    message := if response.description.truth then response.description
      else .text undescribedErrorMessage
  }

def caseOf (mode : ResponseMode) (response : Response) : Except Failure StatusCase :=
  if response.isSuccess then caseForSuccess mode response else caseForError response

/-- The responses without those whose status was declared before. -/
def distinctStatuses (responses : List Response) : List Response :=
  Entries.distinct (fun first second => first.statusKey == second.statusKey) responses

/-- The cases of an operation in the order of declaration, with the default last and an empty
success first if no success is declared. -/
def cases (operation : Operation) (mode : ResponseMode) : Except Failure (List StatusCase) := do
  let declared ← (distinctStatuses operation.responses).mapM (caseOf mode)
  let (default, coded) := declared.partition fun c => c.status == "default"
  let implied : List StatusCase :=
    if operation.successes.isEmpty then [{ status := "2XX", action := .returnNothing }] else []
  return implied ++ coded ++ default

def bodyFormat (shape : Shape) : BodyFormat :=
  if shape.isBytes then .binary else if shape.isArray then .jsonList else .json

def contentType (body : Option Parameter) : Option String :=
  body.map fun parameter =>
    if parameter.type.isBytes then binaryMediaType else jsonMediaType

/-- The media type that is asked for, if some response for success has a body. -/
def accept (operation : Operation) : Option String :=
  let shapes := operation.successes.filterMap Response.type
  if shapes.isEmpty then none
  else if shapes.all Shape.isBytes then some binaryMediaType
  else some jsonMediaType

def argumentsIn (location : Location) (arguments : List Argument) : List Argument :=
  arguments.filter fun argument => decide (argument.location = location)

def bodyPart (streamsBody : Bool) (body : Option Parameter) (argument : Option Argument) :
    RequestMode × List Step :=
  match body, argument with
  | some parameter, some argument =>
    if streamsBody then (.streamed, [.streamedBody argument])
    else (.buffered, [.wholeBody argument (bodyFormat parameter.type)])
  | _, _ => (.none, [])

def toMethod (operation : Operation) (settings : Settings) : Except Failure Method := do
  let names ← operation.names settings
  let mode := ResponseMode.ofFlags (operation.streamsResponse settings names)
    (wrapsResponse settings names)
  let streamsBody := operation.streamsRequest settings names
  let arguments := requiredFirst (← argumentsFrom (.parameters names.client names.method)
    streamsBody [] (usedParameters false operation.parameters))
  let result ← operation.resultHint mode
  let cases ← operation.cases mode
  let query := argumentsIn .query arguments
  let body := (argumentsIn .body arguments).head?
  let (requestMode, bodySteps) := bodyPart streamsBody operation.body? body
  let declarations ← Declaration.collect
    (operation.parameters.map (fun parameter => some parameter.type)
      ++ operation.responses.map Response.type)
  return {
    name := names.method
    rawName := names.raw
    arguments
    returnType := returnHint result mode
    responseMode := mode
    requestMode
    steps :=
      [.url operation.path (argumentsIn .path arguments)]
        ++ (if query.isEmpty then [] else [.query query])
        ++ [.headers (argumentsIn .header arguments) operation.accept
          (contentType operation.body?)]
        ++ bodySteps
        ++ [.request (Text.upper operation.method) settings.useRequestFactory (!query.isEmpty)
            body.isSome,
          .send, .response mode cases result]
    support := mode.support ++ (if requestMode = .streamed then [.arrayStreamContent] else [])
    declarations
    summary := operation.summary
    deprecated := operation.deprecated
  }

end ApiBinding.Operation
