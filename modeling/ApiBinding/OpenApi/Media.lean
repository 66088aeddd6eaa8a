import ApiBinding.Text.Blank
import ApiBinding.Value.Use

/-!
Contents by media type: which of them count as JSON or as bytes, and the schema they give.
-/

namespace ApiBinding.OpenApi

def baseType (mediaType : String) : String :=
  let base := mediaType.toList.takeWhile (· != ';')
  String.ofList ((Text.trim base).map Char.toLower)

def endsWith (ending s : String) : Bool :=
  (Text.after? ending.toList.reverse s.toList.reverse).isSome

/-- Whether a media type, which has to be a text, is one of JSON. -/
def isJsonType : Value → Except Failure Bool
  | .text mediaType =>
    let base := baseType mediaType
    .ok (["application/json", "text/json"].contains base || endsWith "+json" base)
  | .scalar (.bytes _) => .error (.misuse .wrongKind)
  | _ => .error (.misuse .noMember)

def anyJson : List Value → Except Failure Bool
  | [] => .ok false
  | mediaType :: rest => do if ← isJsonType mediaType then return true else anyJson rest

/-- Whether contents are bytes: one of them is, and none is JSON. -/
def isBytes (content : Value) : Except Failure Bool := do
  let mediaTypes ← content.elements
  if mediaTypes.any (Value.isText "application/octet-stream") then return !(← anyJson mediaTypes)
  else return false

/-- The schema of the first content of JSON, if there is one. -/
def jsonSchema? : List (Scalar × Value) → Except Failure (Option Value)
  | [] => .ok none
  | (mediaType, media) :: rest => do
    if ← isJsonType (.scalar mediaType) then return some (← media.member "schema")
    else jsonSchema? rest

/-- The schema of contents: that of the first one of JSON, else that of the first; null if there is
none. -/
def contentSchema (content : Value) : Except Failure Value := do
  let entries ← content.entries
  match ← jsonSchema? entries with
  | some schema => return schema
  | none =>
    match entries with
    | [] => return .null
    | (_, media) :: _ => media.member "schema"

end ApiBinding.OpenApi
