import ApiBinding.Description
import ApiBinding.OpenApi.Media
import ApiBinding.OpenApi.Schema
import ApiBinding.Text.Lines

/-!
Descriptions made from documents: every path item gives operations, with the parameters of the item
and its own, a body and responses.
-/

namespace ApiBinding.OpenApi

/-- The methods under which path items hold operations, in the order of the operations. -/
def verbs : List String :=
  ["get", "put", "post", "delete", "options", "head", "patch", "trace"]

def openingBytes (bytes : List UInt8) : List UInt8 :=
  let isBlank (byte : UInt8) : Bool := (9 ≤ byte && byte ≤ 13) || byte == 32
  let trimmed := ((bytes.dropWhile isBlank).reverse.dropWhile isBlank).reverse
  trimmed.takeWhile fun byte => byte != 10 && byte != 13

/-- The first line of a text without the blanks around the text; null if nothing is left. -/
def openingLine (text : Value) : Except Failure Value :=
  if text.truth then
    match text with
    | .text s => .ok (match Text.lines (Text.trimmed s) with
      | line :: _ => .text line
      | [] => .null)
    | .scalar (.bytes bytes) =>
      let line := openingBytes bytes
      .ok (if line.isEmpty then .null else .scalar (.bytes line))
    | _ => .error (.misuse .noMember)
  else .ok .null

/-- The tag and the name of an operation with tags: the first tag, and what follows the tag in the
identifier, or all of it. -/
def taggedName (identifier tags : Value) : Except Failure (String × Value) := do
  let tag ← tags.first
  tag.checkWritable
  let tag := tag.display
  match identifier with
  | .text s => return (tag, .text ((Text.rest? (tag ++ "_") s).getD s))
  | .scalar (.bytes _) => throw (.misuse .wrongKind)
  | _ => throw (.misuse .noMember)

/-- The tag and the name of an operation without tags: what stands before and after the first
underscore of the identifier. -/
def untaggedName (identifier : Value) : Except Failure (String × Value) := do
  if ← identifier.holds "_" then
    match identifier with
    | .text s =>
      match Text.splitFirst? '_' s.toList with
      | some (tag, name) => return (String.ofList tag, .text (String.ofList name))
      | none => return ("", identifier)
    | _ => throw (.misuse .noMember)
  else return ("", identifier)

def tagWithName (operation : Value) : Except Failure (String × Value) :=
  let identifier := operation.get "operationId"
  let identifier := if identifier.truth then identifier else .text ""
  let tags := operation.get "tags"
  if tags.truth then taggedName identifier tags else untaggedName identifier

def listedParameters (document : Value) (list? : Option Value) : Except Failure (List Value) :=
  match list?.map Value.opened with
  | none => .ok []
  | some (.list items) => items.mapM (dereference document)
  | some _ => .error (.description .parameterList)

/-- A parameter is told apart from others by its name and its place. -/
abbrev ParameterKey := Scalar × Scalar

def sameParameter (first second : ParameterKey) : Bool :=
  first.1.same second.1 && first.2.same second.2

def parameterKey (method path : String) (parameter : Value) : Except Failure ParameterKey := do
  let name ← parameter.member "name"
  let place ← parameter.member "in"
  if name.truth && place.truth then return (← name.asKey, ← place.asKey)
  else throw (.description (.parameterKey method path))

/-- Parameters by their keys in the order of first appearance; the last one of a key counts. -/
def mergeParameters (method path : String) (merged : List (ParameterKey × Value)) :
    List Value → Except Failure (List (ParameterKey × Value))
  | [] => .ok merged
  | parameter :: rest => do
    let key ← parameterKey method path parameter
    mergeParameters method path (Entries.put sameParameter key parameter merged) rest

def locationOf? : Value → Option Location
  | .text "path" => some .path
  | .text "query" => some .query
  | .text "header" => some .header
  | .text "body" => some .body
  | _ => none

/-- The schema of a parameter: its own, that of its contents, or the parameter itself. -/
def parameterSchema (parameter : Value) : Except Failure Value :=
  match parameter.get "schema" with
  | .null =>
    let content := parameter.get "content"
    if content.truth then contentSchema content else .ok parameter
  | schema => .ok schema

/-- The parameter that an object describes, unless it is sent in a place that is not supported. -/
def parameterOf (convert : Value → Conversion Shape) (method path : String) (parameter : Value) :
    Conversion (Option Parameter) := do
  match locationOf? (parameter.get "in") with
  | none =>
    (parameter.get "in").checkWritable
    (parameter.get "name").checkWritable
    warn (.skippedParameter (parameter.get "in") (parameter.get "name") method path)
    return none
  | some location =>
    let schema ← parameterSchema parameter
    let type ← convert schema
    return some {
      name := parameter.get "name"
      location
      type := nullIf (parameter.get "x-nullable").truth type
      required := ((parameter.get? "required").map Value.truth).getD (decide (location = .path))
      default := (parameter.get? "default").getD (schema.get "default")
      description := parameter.get "description"
    }

def parametersOf (convert : Value → Conversion Shape) (method path : String) :
    List Value → Conversion (List Parameter)
  | [] => return []
  | parameter :: rest => do
    let first ← parameterOf convert method path parameter
    return first.toList ++ (← parametersOf convert method path rest)

def bodyOf (convert : Value → Conversion Shape) (body : Value) : Conversion Parameter := do
  let content := (← body.member? "content").getD (.map [])
  let type ← if ← isBytes content then pure (Shape.primitive .binary false) else do
    match ← contentSchema content with
    | .null => pure (Shape.primitive .any false)
    | schema => convert schema
  return {
    name := (body.get? "x-name").getD (.text "body")
    location := .body
    type
    required := (body.get "required").truth
    description := body.get "description"
  }

def responseShape (convert : Value → Conversion Shape) (response : Value) :
    Conversion (Option Shape) := do
  if ← response.holds "schema" then
    match response.get? "schema" with
    | some schema => return some (← convert schema)
    | none => throw (.misuse .wrongKind)
  else
    let content ← response.member "content"
    if content.truth then
      if ← isBytes content then return some (.primitive .binary false)
      match ← contentSchema content with
      | .null => return none
      | schema => return some (← convert schema)
    else return none

def responseOf (convert : Value → Conversion Shape) (status : String) (response : Value) :
    Conversion Response := do
  let type ← responseShape convert response
  return {
    status := if status = "default" then status else Text.upper status
    type
    nullable := (response.get "x-nullable").truth || (type.map Shape.nullable).getD false
    description := response.get "description"
  }

def responsesOf (convert : Value → Conversion Shape) (document : Value) :
    List (Scalar × Value) → Conversion (List Response)
  | [] => return []
  | (status, response) :: rest => do
    (Value.scalar status).checkWritable
    let first ← responseOf convert status.display (← dereference document response)
    return first :: (← responsesOf convert document rest)

def bodiesOf (convert : Value → Conversion Shape) (document operation : Value) :
    Conversion (List Parameter) := do
  match operation.get "requestBody" with
  | .null => return []
  | body => return [← bodyOf convert (← dereference document body)]

def responseEntries (method path : String) (operation : Value) :
    Except Failure (List (Scalar × Value)) :=
  match (operation.get? "responses").map Value.opened with
  | none => .ok []
  | some (.map entries) => .ok entries
  | some _ => .error (.description (.responses method path))

def operationOf (convert : Value → Conversion Shape) (document : Value) (method path : String)
    (operation : Value) (common : List Value) : Conversion Operation := do
  let shown := Text.upper method
  let (tag, name) ← tagWithName operation
  let own ← listedParameters document (operation.get? "parameters")
  let merged ← mergeParameters shown path [] (common ++ own)
  let parameters ← parametersOf convert shown path (merged.map Prod.snd)
  let body ← bodiesOf convert document operation
  let entries ← responseEntries shown path operation
  let summary ← if (operation.get "summary").truth then pure (operation.get "summary")
    else openingLine (operation.get "description")
  let responses ← responsesOf convert document entries
  return {
    tag, name, method, path
    parameters := parameters ++ body
    responses, summary
    deprecated := (operation.get "deprecated").truth
  }

def operationsOf (convert : Value → Conversion Shape) (document : Value) (path : String)
    (item : Value) (common : List Value) : List String → Conversion (List Operation)
  | [] => return []
  | method :: rest => do
    match item.get method with
    | .null => operationsOf convert document path item common rest
    | operation =>
      if !operation.isMap then throw (.description (.operation (Text.upper method) path))
      let operation ← operationOf convert document method path operation common
      return operation :: (← operationsOf convert document path item common rest)

def pathsOf (convert : Value → Conversion Shape) (document : Value) :
    List (Scalar × Value) → Conversion (List Operation)
  | [] => return []
  | (path, item) :: rest => do
    let item ← dereference document item
    (Value.scalar path).checkWritable
    if item.isMap then
      let common ← listedParameters document (item.get? "parameters")
      let operations ← operationsOf convert document path.display item common verbs
      return operations ++ (← pathsOf convert document rest)
    else throw (.description (.pathItem path))

/-- The description that a document gives when its schemas are converted in the given way. -/
def describeBy (convert : Value → Conversion Shape) (document : Value) :
    Conversion Description := do
  let entries ← match (← document.member? "paths").map Value.opened with
    | none => pure []
    | some (.map entries) => pure entries
    | some _ => throw (.description .paths)
  let operations ← pathsOf convert document entries
  return { operations, title := ((document.get? "info").getD (.map [])).get "title" }

def describe (document : Value) : Conversion Description :=
  describeBy (shapeOf document) document

end ApiBinding.OpenApi
