import ApiBinding.Method.Docstring
import ApiBinding.Method.Path

/-!
The text of methods, line by line.
-/

namespace ApiBinding

open Text (quoted joined)

def bodyIndent : String := "        "

def Argument.signature (argument : Argument) (style : TypeHint.Style) : String :=
  let typed := argument.name ++ ": " ++ argument.type.text style
  match argument.default with
  | some default => typed ++ " = " ++ default
  | none => typed

/-- Whether null stands for leaving the argument out. -/
def Argument.isOmittable (argument : Argument) : Bool := argument.default == some "None"

/-- The text of a value unless the argument is null, and of null then. -/
def Argument.guarded (argument : Argument) (value : String) : String :=
  if argument.isOmittable then value ++ " if " ++ argument.name ++ " is not None else None"
  else value

def Argument.assignment (argument : Argument) (target value : String) : List String :=
  let statement := target ++ "[" ++ quoted argument.sentName ++ "] = " ++ value
  if argument.isOmittable then
    [bodyIndent ++ "if " ++ argument.name ++ " is not None:", bodyIndent ++ "    " ++ statement]
  else [bodyIndent ++ statement]

def PathTemplate.Piece.expression : PathTemplate.Piece → String
  | .text cs => quoted (String.ofList cs)
  | .value argument => "quote(str(" ++ argument.name ++ "), safe='')"

def addressExpression (path : String) (arguments : List Argument) : String :=
  joined " + " ("self.base_url.rstrip('/')"
    :: (PathTemplate.pieces arguments path).map PathTemplate.Piece.expression)

def wholeBodyExpression (argument : Argument) : BodyFormat → String
  | .binary => argument.name
  | .jsonList => argument.guarded ("json.dumps(list(" ++ argument.name ++ "))")
  | .json => argument.guarded ("json.dumps(" ++ argument.name ++ ")")

def streamedBodyExpression (argument : Argument) : String :=
  argument.guarded ("JsonArrayStreamContent(" ++ argument.name ++ ")")

def headerLines (arguments : List Argument) (accept contentType : Option String) : List String :=
  let fixed := (accept.map fun type => "'Accept': " ++ quoted type).toList
    ++ (contentType.map fun type => "'Content-Type': " ++ quoted type).toList
  (bodyIndent ++ "request_headers_: dict[str, str] = \x7b" ++ joined ", " fixed ++ "\x7d")
    :: arguments.flatMap fun argument =>
      argument.assignment "request_headers_" ("str(" ++ argument.name ++ ")")

def requestLine (httpMethod : String) (viaFactory hasQuery hasContent : Bool) : String :=
  let arguments := [quoted httpMethod, "url_"]
    ++ (if hasQuery then ["params=query_"] else [])
    ++ ["headers=request_headers_"]
    ++ (if hasContent then ["content=content_"] else [])
  let callee := if viaFactory then "await self.create_http_request_async"
    else "self._transport.build_request"
  bodyIndent ++ "request_ = " ++ callee ++ "(" ++ joined ", " arguments ++ ")"

inductive StatusTest where
  | hundred (first : Nat)
  | code (value : Int)
deriving DecidableEq

/-- The statuses that a status text stands for: `2XX` for a hundred of them, a number for one. -/
def StatusTest.ofText? (status : String) : Option StatusTest :=
  match status.toList with
  | [c, 'X', 'X'] => (Text.digitValue? c).map fun digit => .hundred (digit * 100)
  | _ => (Numeral.int? status).map .code

def StatusTest.accepts : StatusTest → Int → Bool
  | .hundred first, status => (first : Int) ≤ status && status < first + 100
  | .code value, status => status == value

def StatusTest.condition : StatusTest → String
  | .hundred first => toString first ++ " <= status_ < " ++ toString (first + 100)
  | .code value => "status_ == " ++ toString value

def raiseText (message response result : String) : String :=
  "raise ApiException(" ++ message ++ ", status_, " ++ response ++ ", headers_, " ++ result ++ ")"

/-- A result, inside a response object if the mode asks for it. -/
def wrappedText (value : String) (mode : ResponseMode) : String :=
  if mode = .wrapped then "ApiResponse(status_, headers_, " ++ value ++ ")" else value

/-- The result as a value of its type. The type is quoted, so that it is never evaluated. -/
def castText (type : Option TypeHint) (style : TypeHint.Style) : String :=
  let target := match type with
    | some type => quoted (type.text style)
    | none => "Any"
  "cast(" ++ target ++ ", result_)"

def undecodableMessage : String := "Could not deserialize the response body."

def undeclaredStatusMessage : String :=
  "The HTTP status code of the response was not expected (\x7bstatus_\x7d)."

namespace StatusCase

/-- The lines that decode a JSON body, or raise the exception with the given message. -/
def decodeLines (message : String) : List String :=
  ["data_ = await response_.aread()",
    "try:",
    "    result_ = json.loads(data_) if data_ else None",
    "except ValueError:",
    "    " ++ raiseText message "response_.text" "None" ++ " from None"]

def streamResult (mode : ResponseMode) (value : String) : String :=
  if mode = .streamedWrapped then
    "DisposableApiResponse(status_, headers_, " ++ value ++ ", response_)"
  else value

def statements (c : StatusCase) (mode : ResponseMode) (style : TypeHint.Style) : List String :=
  let message := c.message.literal
  let failEmpty := raiseText message "None" "None"
  let value := castText c.type style
  match c.action with
  | .returnNothing => ["return " ++ wrappedText "None" mode]
  | .failEmpty => [failEmpty]
  | .returnBytes =>
    ["result_ = await response_.aread()", "return " ++ wrappedText "result_" mode]
  | .openStream =>
    ["result_ = JsonArrayStream(response_)",
      "if not await result_.prime():",
      "    " ++ failEmpty,
      "dispose_response_ = False",
      "return " ++ streamResult mode value]
  | .failDeclared =>
    match c.type with
    | none => ["await response_.aread()", raiseText message "response_.text" "None"]
    | some _ => decodeLines message ++ [raiseText message "response_.text" "result_"]
  | .decodeValue =>
    decodeLines (quoted undecodableMessage)
      ++ ["if result_ is None:", "    " ++ failEmpty, "return " ++ wrappedText value mode]
  | .decodeOptional =>
    decodeLines (quoted undecodableMessage) ++ ["return " ++ wrappedText value mode]

/-- The lines of a case: its statements, under a test of the status unless it is the default. -/
def lines (c : StatusCase) (mode : ResponseMode) (style : TypeHint.Style) :
    Except Failure (List String) :=
  let statements := c.statements mode style
  if c.status = "default" then .ok (statements.map ("            " ++ ·))
  else
    match StatusTest.ofText? c.status with
    | some test =>
      .ok (("            if " ++ test.condition ++ ":")
        :: statements.map ("                " ++ ·))
    | none => .error (.misuse .numeral)

end StatusCase

def responseLines (mode : ResponseMode) (cases : List StatusCase) (style : TypeHint.Style) :
    Except Failure (List String) := do
  let caseLines ← cases.mapM fun c => c.lines mode style
  let unexpected :=
    if cases.any (·.status == "default") then []
    else
      ["            await response_.aread()",
        "            " ++ raiseText ("f" ++ quoted undeclaredStatusMessage) "response_.text" "None"]
  return ["        try:",
      "            status_ = response_.status_code",
      "            headers_ = response_.headers"]
    ++ caseLines.flatten ++ unexpected
    ++ ["        finally:",
      "            if dispose_response_:",
      "                await response_.aclose()"]

def Step.lines (style : TypeHint.Style) : Step → Except Failure (List String)
  | .url path arguments => .ok [bodyIndent ++ "url_ = " ++ addressExpression path arguments]
  | .query arguments =>
    .ok ((bodyIndent ++ "query_: dict[str, Any] = \x7b\x7d")
      :: arguments.flatMap fun argument => argument.assignment "query_" argument.name)
  | .headers arguments accept contentType => .ok (headerLines arguments accept contentType)
  | .wholeBody argument format =>
    .ok [bodyIndent ++ "content_ = " ++ wholeBodyExpression argument format]
  | .streamedBody argument => .ok [bodyIndent ++ "content_ = " ++ streamedBodyExpression argument]
  | .request httpMethod viaFactory hasQuery hasContent =>
    .ok [requestLine httpMethod viaFactory hasQuery hasContent]
  | .send =>
    .ok [bodyIndent ++ "response_ = await self._transport.send(request_, stream=True)",
      bodyIndent ++ "dispose_response_ = True"]
  | .response mode cases _ => responseLines mode cases style

namespace Method

def signature (method : Method) (dialect : Dialect) : String :=
  let style := TypeHint.Style.inline dialect
  "    async def " ++ method.name ++ "("
    ++ joined ", " ("self" :: method.arguments.map fun argument => argument.signature style)
    ++ ") -> " ++ method.returnType.text style ++ ":"

/-- The lines of the docstring, for which a summary has to be a text. -/
def docstring (method : Method) : Except Failure (List String) :=
  match method.summary with
  | .text summary => .ok (Docstring.lines bodyIndent summary method.deprecated)
  | summary =>
    if summary.truth then .error (.misuse .noMember)
    else .ok (Docstring.lines bodyIndent "" method.deprecated)

def interfaceLines (method : Method) (dialect : Dialect) : Except Failure (List String) := do
  return method.signature dialect :: (← method.docstring) ++ [bodyIndent ++ "..."]

def lines (method : Method) (dialect : Dialect) (overrides : Bool) :
    Except Failure (List String) := do
  let docstring ← method.docstring
  let steps ← method.steps.mapM (Step.lines (.inline dialect))
  return (if overrides then ["    @override"] else [])
    ++ method.signature dialect :: docstring ++ steps.flatten

end Method

end ApiBinding
