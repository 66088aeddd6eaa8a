import ApiBinding.Declaration
import ApiBinding.Description
import ApiBinding.Settings

/-!
Methods of generated clients: their arguments, the steps of their bodies and what they hand to the
caller. A method carries every decision that its text depends on.
-/

namespace ApiBinding

/-- A class that the module brings along for its methods. -/
inductive SupportClass where
  | exception
  | response
  | disposableResponse
  | arrayStream
  | arrayStreamContent
deriving DecidableEq

namespace SupportClass

/-- All support classes, in the order in which a module declares them. -/
def all : List SupportClass :=
  [.exception, .response, .disposableResponse, .arrayStream, .arrayStreamContent]

def name : SupportClass → String
  | .exception => "ApiException"
  | .response => "ApiResponse"
  | .disposableResponse => "DisposableApiResponse"
  | .arrayStream => "JsonArrayStream"
  | .arrayStreamContent => "JsonArrayStreamContent"

end SupportClass

/-- How a method hands its response to the caller: as a value or inside a response object, and as a
whole or item by item. -/
inductive ResponseMode where
  | plain
  | wrapped
  | streamed
  | streamedWrapped
deriving DecidableEq

namespace ResponseMode

def ofFlags (streamed wrapped : Bool) : ResponseMode :=
  match streamed, wrapped with
  | false, false => .plain
  | false, true => .wrapped
  | true, false => .streamed
  | true, true => .streamedWrapped

def isStreamed : ResponseMode → Bool
  | .streamed => true
  | .streamedWrapped => true
  | _ => false

def isWrapped : ResponseMode → Bool
  | .wrapped => true
  | .streamedWrapped => true
  | _ => false

def support : ResponseMode → List SupportClass
  | .plain => [.exception]
  | .wrapped => [.exception, .response]
  | .streamed => [.exception, .arrayStream]
  | .streamedWrapped => [.exception, .response, .disposableResponse, .arrayStream]

end ResponseMode

inductive RequestMode where
  | none
  | buffered
  | streamed
deriving DecidableEq

inductive CaseAction where
  | decodeValue
  | decodeOptional
  | returnBytes
  | openStream
  | returnNothing
  | failEmpty
  | failDeclared
deriving DecidableEq

inductive BodyFormat where
  | json
  | jsonList
  | binary
deriving DecidableEq

/-- An argument of a method, with the parameter that it stands for. -/
structure Argument where
  name : String
  sentName : String
  location : Location
  type : TypeHint
  required : Bool
  default : Option String := none

structure StatusCase where
  status : String
  action : CaseAction
  type : Option TypeHint := none
  message : Value := .null

inductive Step where
  | url (path : String) (arguments : List Argument)
  | query (arguments : List Argument)
  | headers (arguments : List Argument) (accept contentType : Option String)
  | wholeBody (argument : Argument) (format : BodyFormat)
  | streamedBody (argument : Argument)
  | request (httpMethod : String) (viaFactory hasQuery hasContent : Bool)
  | send
  | response (mode : ResponseMode) (cases : List StatusCase) (result : TypeHint)

structure Method where
  name : String
  rawName : String
  arguments : List Argument
  returnType : TypeHint
  responseMode : ResponseMode
  requestMode : RequestMode
  steps : List Step
  support : List SupportClass
  declarations : List Declaration := []
  summary : Value := .null
  deprecated : Bool := false

end ApiBinding
