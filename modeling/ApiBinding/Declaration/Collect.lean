import ApiBinding.Declaration

/-!
The declarations of the named types that shapes reach. A name that is met without fields gives way,
in its place, to a later meeting with fields.
-/

namespace ApiBinding.Declaration

def find? (found : List Declaration) (name : String) : Option Declaration :=
  found.find? (·.name == name)

/-- Adds a declaration in place of the one of its name, or at the end. -/
def put (declaration : Declaration) : List Declaration → List Declaration
  | [] => [declaration]
  | d :: rest =>
    if d.name = declaration.name then declaration :: rest else d :: put declaration rest

/-- Refuses a second source for the name of a declaration. -/
def requireSource (existing : Option Declaration) (name source : String) : Except Failure Unit :=
  match existing with
  | some declaration =>
    if declaration.source = source then .ok ()
    else .error (.collision .types name declaration.source source)
  | none => .ok ()

def hintedFields (fields : List Field) : Except Failure (List (FieldOf TypeHint)) :=
  fields.mapM fun field => do
    let type ← TypeHint.ofShape? .response field.type
    return { name := field.name, type, required := field.required }

def ofObject (name source : String) (fields : List Field) (additional : Option Shape) :
    Except Failure Declaration := do
  if fields.isEmpty then
    let value ← match additional with
      | some shape => TypeHint.ofShape? .response shape
      | none => pure (TypeHint.any false)
    return { name, source, body := .synonym (.applied .mapping [value] false) }
  else
    return { name, source, body := .record (← hintedFields fields) }

/-- The declaration of an enumeration, whose members have to be scalars. -/
def ofEnumeration (name source : String) (members : List Value) : Except Failure Declaration :=
  if members.all Value.isFixed then
    .ok { name, source, body := .enumeration (Entries.distinct Value.same members) }
  else .error (.misuse .wrongKind)

mutual

/-- Adds the declarations of the named types that a shape reaches to those found before. -/
def addShape (found : List Declaration) : Shape → Except Failure (List Declaration)
  | .array element _ _ => addShape found element
  | .generic _ argument _ => addShape found argument
  | .enumeration name members _ =>
    match Shape.label? name with
    | none => .ok found
    | some source => do
      let name := Identifier.ofRaw .type source
      requireSource (find? found name) name source
      match find? found name with
      | some _ => return found
      | none => return put (← ofEnumeration name source members) found
  | .object name fields additional _ =>
    match Shape.label? name with
    | none => do
      let found ← addFields found fields
      match additional with
      | some shape => addShape found shape
      | none => return found
    | some source => do
      let name := Identifier.ofRaw .type source
      let existing := find? found name
      requireSource existing name source
      if existing.any fun d => d.hasFields || fields.isEmpty then return found
      else
        let found ← addFields (put (← ofObject name source fields additional) found) fields
        match additional with
        | some shape => addShape found shape
        | none => return found
  | .primitive .. => .ok found
  | .unknown .. => .ok found

def addFields (found : List Declaration) : List Field → Except Failure (List Declaration)
  | [] => .ok found
  | ⟨_, type, _⟩ :: rest => do addFields (← addShape found type) rest

end

/-- The declarations of the named types that shapes reach, in the order in which their names are
met. -/
def collect (shapes : List (Option Shape)) : Except Failure (List Declaration) :=
  shapes.foldlM (fun found shape =>
    match shape with
    | some shape => addShape found shape
    | none => pure found) []

end ApiBinding.Declaration
