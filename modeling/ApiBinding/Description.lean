import ApiBinding.Description.Shape
import ApiBinding.Text.Case

/-!
Descriptions of APIs: operations with their parameters and responses. Places that hold free text
may hold any value, since descriptions are written by hand.
-/

namespace ApiBinding

inductive Location where
  | path
  | query
  | header
  | body
  | other (name : String)
deriving DecidableEq

def Location.ofName : String → Location
  | "path" => .path
  | "query" => .query
  | "header" => .header
  | "body" => .body
  | name => .other name

def Location.name : Location → String
  | .path => "path"
  | .query => "query"
  | .header => "header"
  | .body => "body"
  | .other name => name

structure Parameter where
  name : Value
  location : Location
  type : Shape
  required : Bool := false
  default : Value := .null
  description : Value := .null

/-- A declared response of an operation, for a status code, a range of codes or by default. -/
structure Response where
  status : String
  type : Option Shape := none
  nullable : Bool := false
  description : Value := .null

inductive Outcome where
  | success
  | error
  | default
deriving DecidableEq

def Response.outcome (response : Response) : Outcome :=
  if response.status = "default" then .default
  else if response.status.toList.head? = some '2' then .success
  else .error

def Response.isSuccess (response : Response) : Bool :=
  decide (response.outcome = .success)

/-- The status of the response as it is compared and written. -/
def Response.statusKey (response : Response) : String :=
  if response.status = "default" then "default" else Text.upper response.status

/-- A callable endpoint; the tag says to which client it belongs. -/
structure Operation where
  tag : String
  name : Value
  method : String
  path : String
  parameters : List Parameter := []
  responses : List Response := []
  summary : Value := .null
  deprecated : Bool := false

structure Description where
  operations : List Operation := []
  title : Value := .null

end ApiBinding
