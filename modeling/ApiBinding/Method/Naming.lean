import ApiBinding.Identifier.Operation
import ApiBinding.Method
import ApiBinding.Value.Use

/-!
The names of operations: of their method and their client, and the pairs of names by which settings
may refer to them.
-/

namespace ApiBinding.Operation

/-- The name of an operation; one without a name is called after its method and path. -/
def rawName (operation : Operation) : Except Failure String :=
  if operation.name.truth then operation.name.asText
  else .ok (Identifier.ofOperation operation.method operation.path)

/-- The clients by which an operation may be referred to, in ascending order: its tag and its
class. -/
def clientNames (operation : Operation) (settings : Settings) : List String :=
  let className := settings.clientName operation.tag
  let tagName := Identifier.ofRaw .type operation.tag
  if operation.tag = "" ∨ tagName = className then [className]
  else if tagName < className then [tagName, className]
  else [className, tagName]

/-- The names of an operation, with the pairs of a client and a method that refer to it. -/
structure Names where
  raw : String
  method : String
  client : String
  pairs : List (String × String)

def names (operation : Operation) (settings : Settings) : Except Failure Names := do
  let raw ← operation.rawName
  let method := Identifier.ofRaw .method raw
  return {
    raw, method
    client := settings.clientName operation.tag
    pairs := (operation.clientNames settings).map fun client => (client, method)
  }

def body? (operation : Operation) : Option Parameter :=
  operation.parameters.find? fun parameter => decide (parameter.location = .body)

/-- The parameters that are sent as the body, apart from the first. -/
def extraBodies (operation : Operation) : List Parameter :=
  (operation.parameters.filter fun parameter => decide (parameter.location = .body)).drop 1

def successes (operation : Operation) : List Response :=
  operation.responses.filter Response.isSuccess

/-- The response that gives the result: the first for success with a body, else the first. -/
def primary? (operation : Operation) : Option Response :=
  match operation.successes.find? fun response => response.type.isSome with
  | some response => some response
  | none => operation.successes.head?

def hasStreamableResponse (operation : Operation) : Bool :=
  ((operation.primary?.bind Response.type).map Shape.canStream).getD false

def hasStreamableBody (operation : Operation) : Bool :=
  (operation.body?.map fun parameter => parameter.type.canStream).getD false

def warnings (operation : Operation) (settings : Settings) (names : Names) : List Warning :=
  operation.extraBodies.map (fun parameter =>
      .extraBody names.client names.method parameter.name)
    ++ (if MethodReference.lists settings.streamedResponses names.pairs
          && !operation.hasStreamableResponse
        then [.notStreamableResponse names.client names.method] else [])
    ++ (if MethodReference.lists settings.streamedRequests names.pairs
          && !operation.hasStreamableBody
        then [.notStreamableRequest names.client names.method] else [])

end ApiBinding.Operation
