import ApiBinding.Description.Shape
import ApiBinding.OpenApi.Reference
import ApiBinding.Value.Use

/-!
Shapes of schemas. Schemas that are referred to by name are converted once. A reference to a schema
that is being converted gives an object of that name without fields.
-/

namespace ApiBinding.OpenApi

/-- How far the conversion of a document has come: the shapes of named schemas, the names of those
being converted, and the warnings so far. -/
structure Progress where
  named : List (String × Shape) := []
  pending : List String := []
  warnings : List Warning := []

/-- A step of the conversion, which may fail and leaves its progress behind in any case. -/
abbrev Conversion := ExceptT Failure (StateM Progress)

def warn (warning : Warning) : Conversion Unit :=
  modify fun progress => { progress with warnings := progress.warnings ++ [warning] }

/-- Runs a step while a name counts as being converted. -/
def whilePending {α : Type} (name : String) (step : Conversion α) : Conversion α :=
  ExceptT.mk fun progress =>
    let (result, progress) :=
      step.run { progress with pending := name :: progress.pending }
    (result, { progress with pending := progress.pending.erase name })

def allowsNull (schema : Value) : Bool :=
  (schema.get "nullable").truth || (schema.get "x-nullable").truth
    || (match (schema.get "type").opened with
      | .list types => types.any (Value.isText "null")
      | _ => false)

def allowsNullOnly (schema : Value) : Bool :=
  schema.isMap && (schema.get "type").isText "null"

/-- The type that a schema names; of several types, null apart, none is named. -/
def statedType (schema : Value) : Value :=
  let type := schema.get "type"
  match type.opened with
  | .list types =>
    match types.filter fun type => !type.isText "null" with
    | [type] => type
    | _ => .null
  | _ => type

def nullIf (nullable : Bool) (shape : Shape) : Shape :=
  if nullable then shape.orNull else shape

/-- The shape of a schema by its type alone, if it needs no part of the schema. -/
def simpleShape? (schema : Value) (nullable : Bool) : Option Shape :=
  match statedType schema with
  | .text "string" =>
    if (schema.get "format").isText "binary" then some (.primitive .binary nullable)
    else some (.primitive .string nullable)
  | .text "file" => some (.primitive .binary nullable)
  | .text "integer" => some (.primitive .integer nullable)
  | .text "number" => some (.primitive .number nullable)
  | .text "boolean" => some (.primitive .boolean nullable)
  | _ => none

def enumeratesNull : Value → Except Failure Bool
  | .scalar _ => .error (.misuse .wrongKind)
  | values => do return (← values.elements).any Value.isNull

/-- What a conversion must not come back to before it enters a schema with a name: a reference that
it follows, or a value that holds itself. -/
inductive Landmark where
  | reference (text : String)
  | knot (name : Nat)
deriving DecidableEq

/-- The landmarks passed since the last schema with a name. -/
abbrev Trail := List Landmark

/-- The trail after a landmark. A conversion that comes back to one never ends. -/
def Trail.passing (landmark : Landmark) (trail : Trail) : Except Failure Trail :=
  if trail.contains landmark then .error (.misuse .endless) else .ok (landmark :: trail)

def Trail.into (trail : Trail) : Value → Except Failure Trail
  | .knot name _ => trail.passing (.knot name)
  | _ => .ok trail

abbrev Converter := Trail → Value → Conversion Shape

/-- Adds the fields of an object to those before; a field of the same name replaces one in place. -/
def addFields (fields : List (Scalar × Field)) (added : List Field) : List (Scalar × Field) :=
  added.foldl (fun fields field => Entries.put Scalar.same field.name field fields) fields

/-- The fields and the further values that the members of a conjunction give. Members that are no
objects are left out with a warning. -/
def mergeBases (shapeOf : Converter) (trail : Trail) (name : Option String)
    (fields : List (Scalar × Field)) (additional : Option Shape) :
    List Value → Conversion (List (Scalar × Field) × Option Shape)
  | [] => return (fields, additional)
  | base :: rest => do
    match ← shapeOf trail base with
    | .object _ baseFields baseAdditional _ =>
      mergeBases shapeOf trail name (addFields fields baseFields) (additional.or baseAdditional)
        rest
    | _ =>
      warn (.ignoredMember name)
      mergeBases shapeOf trail name fields additional rest

def mergeProperties (shapeOf : Converter) (trail : Trail) (required : List Scalar)
    (fields : List (Scalar × Field)) : List (Scalar × Value) → Conversion (List (Scalar × Field))
  | [] => return fields
  | (name, schema) :: rest => do
    let type ← shapeOf trail schema
    let field : Field := { name, type, required := required.any (Scalar.same · name) }
    mergeProperties shapeOf trail required (Entries.put Scalar.same name field fields) rest

/-- The name that an element of a list of names is, if it is one. -/
def requiredName? : Value → Except Failure (Option Scalar)
  | .scalar s => .ok (some s)
  | v => if v.isFixed then .ok none else .error (.misuse .wrongKind)

def requiredNames (schema : Value) : Except Failure (List Scalar) :=
  match schema.get? "required" with
  | none => .ok []
  | some names => do
    let names ← (← names.elements).mapM requiredName?
    return names.filterMap id

def propertiesOf (schema : Value) : Except Failure (List (Scalar × Value)) :=
  match schema.get? "properties" with
  | none => .ok []
  | some properties => properties.entries

def objectShape (shapeOf : Converter) (trail : Trail) (schema : Value) (name : Option String)
    (nullable : Bool) (bases : List Value) : Conversion Shape := do
  let (fields, additional) ← mergeBases shapeOf trail name [] none bases
  let required ← requiredNames schema
  let fields ← mergeProperties shapeOf trail required fields (← propertiesOf schema)
  let further := schema.get "additionalProperties"
  let additional ← match further with
    | .bool true => pure (some (Shape.primitive .any false))
    | _ => if further.isMap then do pure (some (← shapeOf trail further)) else pure additional
  return .object name (fields.map Prod.snd) additional nullable

/-- The shape of a union of schemas: that of its only member apart from null, or unknown. -/
def unionShape (shapeOf : Converter) (trail : Trail) (key : String) (nullable : Bool)
    (members : Value) : Conversion Shape := do
  let members ← members.elements
  match members.filter fun member => !allowsNullOnly member with
  | [only] => return nullIf (nullable || decide (1 < members.length)) (← shapeOf trail only)
  | _ => return .unknown (some (key ++ " union")) nullable

/-- The shape of a conjunction of schemas: that of its only member if the schema adds no properties,
or the object of all. -/
def conjunctionShape (shapeOf : Converter) (trail : Trail) (schema : Value)
    (name : Option String) (nullable : Bool) (members : Value) : Conversion Shape := do
  let bases ← members.elements
  if bases.length = 1 ∧ (schema.get "properties").truth = false then
    return nullIf nullable (← shapeOf trail (← members.first))
  else objectShape shapeOf trail schema name nullable bases

def enumerationShape (name : Option String) (nullable : Bool) (values : Value) :
    Except Failure Shape := do
  let members := (← values.elements).filter fun v => !v.isNull
  let nullable ← if nullable then pure true else enumeratesNull values
  return .enumeration name members nullable

def typedShape (shapeOf : Converter) (trail : Trail) (schema : Value) (name : Option String)
    (nullable : Bool) : Conversion Shape :=
  match simpleShape? schema nullable with
  | some shape => return shape
  | none =>
    let type := statedType schema
    if type.isText "array" then do
      let element ← match schema.get "items" with
        | .null => pure (Shape.primitive .any false)
        | items => shapeOf trail items
      return .array element nullable true
    else if type.isText "object" || (schema.get? "properties").isSome
        || (schema.get? "additionalProperties").isSome then
      objectShape shapeOf trail schema name nullable []
    else if type.isNull then return .primitive .any nullable
    else do
      type.checkWritable
      return .unknown (some ("type " ++ type.literal)) nullable

def inlineShape (shapeOf : Converter) (trail : Trail) (schema : Value)
    (name : Option String) : Conversion Shape :=
  let nullable := allowsNull schema
  if (schema.get "oneOf").truth then
    unionShape shapeOf trail "oneOf" nullable (schema.get "oneOf")
  else if (schema.get "anyOf").truth then
    unionShape shapeOf trail "anyOf" nullable (schema.get "anyOf")
  else if (schema.get "allOf").truth then
    conjunctionShape shapeOf trail schema name nullable (schema.get "allOf")
  else if (schema.get "enum").truth then enumerationShape name nullable (schema.get "enum")
  else typedShape shapeOf trail schema name nullable

def targetShape (document : Value) (shapeOf : Converter) (reference name : String) :
    Conversion Shape := do
  let target ← referenced document reference
  if target.isMap then
    if (target.get? referenceKey).isSome then shapeOf [] target
    else inlineShape shapeOf [] target (some name)
  else throw (.description (.referenceTarget reference))

def referenceShape (document : Value) (shapeOf : Converter) (trail : Trail)
    (reference : String) : Conversion Shape :=
  match namedSchema? reference with
  | none => do
    shapeOf (← trail.passing (.reference reference)) (← referenced document reference)
  | some name => do
    let progress ← get
    match Entries.get? (· == ·) name progress.named with
    | some shape => return shape
    | none =>
      if progress.pending.contains name then return .object (some name) [] none false
      else
        let shape ← whilePending name (targetShape document shapeOf reference name)
        modify fun progress =>
          { progress with named := Entries.put (· == ·) name shape progress.named }
        return shape

def shapeStep (document : Value) (shapeOf : Converter) (trail : Trail) (schema : Value) :
    Conversion Shape := do
  if !schema.isMap then return .unknown (some "non-object schema") false
  let trail ← trail.into schema
  match schema.get referenceKey with
  | .null => inlineShape shapeOf trail schema none
  | .text reference => do
    return nullIf (allowsNull schema) (← referenceShape document shapeOf trail reference)
  | .scalar (.bytes _) => throw (.misuse .wrongKind)
  | _ => throw (.misuse .noMember)

def shapeAt (document : Value) : Nat → Converter
  | 0, _, _ => throw (.misuse .endless)
  | depth + 1, trail, schema => shapeStep document (shapeAt document depth) trail schema

/-- A depth that no conversion exceeds: between two landmarks it goes down one value, no landmark is
twice on a trail, and it enters no named schema twice. -/
def depthBound (document schema : Value) : Nat := Nat.pow (document.size + schema.size + 1) 3

def shapeOf (document schema : Value) : Conversion Shape :=
  shapeAt document (depthBound document schema) [] schema

end ApiBinding.OpenApi
