import ApiBinding.Proofs.OpenApi.Null

/-!
What the conversion of a schema comes to before any part of it is converted, and what it then makes
of the shapes of its parts.
-/

namespace ApiBinding.OpenApi

/-- How a schema is converted: to a shape that needs no part of it, to that of another schema in its
place, to a list or to an object that takes after other schemas. -/
inductive Plan where
  | fixed (shape : Shape)
  | instead (nullable : Bool) (inner : Value)
  | list (items : Value)
  | object (bases : List Value)

def unionPlan (key : String) (nullable : Bool) (members : Value) : Except Failure Plan := do
  let members ← members.elements
  match others members with
  | [only] => return .instead (nullable || decide (1 < members.length)) only
  | _ => return .fixed (.unknown (some (key ++ " union")) nullable)

def conjunctionPlan (schema : Value) (nullable : Bool) (members : Value) : Except Failure Plan := do
  let bases ← members.elements
  if bases.length = 1 ∧ (schema.get "properties").truth = false then
    return .instead nullable (← members.first)
  else return .object bases

def typedPlan (schema : Value) (nullable : Bool) : Except Failure Plan :=
  match simpleShape? schema nullable with
  | some shape => return .fixed shape
  | none =>
    let type := statedType schema
    if type.isText "array" then
      match schema.get "items" with
      | .null => return .fixed (.array (.primitive .any false) nullable true)
      | items => return .list items
    else if type.isText "object" || (schema.get? "properties").isSome
        || (schema.get? "additionalProperties").isSome then return .object []
    else if type.isNull then return .fixed (.primitive .any nullable)
    else do
      type.checkWritable
      return .fixed (.unknown (some ("type " ++ type.literal)) nullable)

def planOf (schema : Value) (name : Option String) : Except Failure Plan :=
  let nullable := allowsNull schema
  if (schema.get "oneOf").truth then unionPlan "oneOf" nullable (schema.get "oneOf")
  else if (schema.get "anyOf").truth then unionPlan "anyOf" nullable (schema.get "anyOf")
  else if (schema.get "allOf").truth then conjunctionPlan schema nullable (schema.get "allOf")
  else if (schema.get "enum").truth then do
    return .fixed (← enumerationShape name nullable (schema.get "enum"))
  else typedPlan schema nullable

def Plan.shape (shapeOf : Converter) (trail : Trail) (schema : Value) (name : Option String) :
    Plan → Conversion Shape
  | .fixed shape => return shape
  | .instead nullable inner => return nullIf nullable (← shapeOf trail inner)
  | .list items => return .array (← shapeOf trail items) (allowsNull schema) true
  | .object bases => objectShape shapeOf trail schema name (allowsNull schema) bases

section

variable (shapeOf : Converter) (trail : Trail) (schema : Value) (name : Option String)

theorem unionShape_eq (key : String) (nullable : Bool) (members : Value) :
    unionShape shapeOf trail key nullable members = (do
      (← unionPlan key nullable members).shape shapeOf trail schema name) := by
  unfold unionShape unionPlan
  cases members.elements with
  | error failure => rfl
  | ok members =>
    simp only [ok_bind, lift_ok_bind]
    change (match others members with
      | [only] => do
        return nullIf (nullable || decide (1 < members.length)) (← shapeOf trail only)
      | _ => return .unknown (some (key ++ " union")) nullable) = _
    split <;> rfl

theorem conjunctionShape_eq (members : Value) :
    conjunctionShape shapeOf trail schema name (allowsNull schema) members = (do
      (← conjunctionPlan schema (allowsNull schema) members).shape shapeOf trail schema name) := by
  unfold conjunctionShape conjunctionPlan
  cases members.elements with
  | error failure => rfl
  | ok bases =>
    simp only [ok_bind, lift_ok_bind]
    split
    next => cases members.first <;> rfl
    next => rfl

theorem typedShape_eq :
    typedShape shapeOf trail schema name (allowsNull schema) = (do
      (← typedPlan schema (allowsNull schema)).shape shapeOf trail schema name) := by
  unfold typedShape typedPlan
  cases simpleShape? schema (allowsNull schema) with
  | some shape => rfl
  | none =>
    dsimp only
    split
    next =>
      cases schema.get "items" with
      | scalar items => cases items <;> rfl
      | _ => rfl
    next =>
      split
      next => rfl
      next =>
        split
        next => rfl
        next => cases (statedType schema).checkWritable <;> rfl

/-- The conversion of a schema follows its plan. -/
theorem inlineShape_eq :
    inlineShape shapeOf trail schema name = (do
      (← planOf schema name).shape shapeOf trail schema name) := by
  unfold inlineShape planOf
  dsimp only
  split
  next => exact unionShape_eq ..
  next =>
    split
    next => exact unionShape_eq ..
    next =>
      split
      next => exact conjunctionShape_eq ..
      next =>
        split
        next => cases enumerationShape name (allowsNull schema) (schema.get "enum") <;> rfl
        next => exact typedShape_eq ..

end

/-- The conversion of schemas one after the other, with the shapes that they give. Warnings may come
in between. -/
inductive Calls (shapeOf : Converter) (trail : Trail) :
    Progress → List (Value × Shape) → Progress → Prop where
  | nil {progress : Progress} (warnings : List Warning) :
    Calls shapeOf trail progress [] { progress with warnings }
  | cons {progress after final : Progress} {schema : Value} {shape : Shape}
    {rest : List (Value × Shape)} (warnings : List Warning)
    (ran : (shapeOf trail schema).run { progress with warnings } = (.ok shape, after))
    (further : Calls shapeOf trail after rest final) :
    Calls shapeOf trail progress ((schema, shape) :: rest) final

section

variable {shapeOf : Converter} {trail : Trail} {progress middle final : Progress}
  {first second : List (Value × Shape)}

theorem Calls.aside {warnings : List Warning}
    (calls : Calls shapeOf trail { progress with warnings } first final) :
    Calls shapeOf trail progress first final := by
  cases calls with
  | nil warnings => exact @Calls.nil shapeOf trail progress warnings
  | cons warnings ran further => exact .cons warnings ran further

theorem Calls.append (calls : Calls shapeOf trail progress first middle)
    (calls' : Calls shapeOf trail middle second final) :
    Calls shapeOf trail progress (first ++ second) final := by
  induction calls with
  | nil => exact calls'.aside
  | cons warnings ran _ ih => exact .cons warnings ran (ih calls')

end

/-- The further values of an object, or those that were there before. -/
def orFurther (additional : Option Shape) : Shape → Option Shape
  | .object _ _ further _ => additional.or further
  | _ => additional

/-- The fields and the further values of shapes joined to those before. -/
def joined (merged : List (Scalar × Field) × Option Shape) (shapes : List Shape) :
    List (Scalar × Field) × Option Shape :=
  shapes.foldl (fun merged shape => (addFields merged.1 shape.fields, orFurther merged.2 shape))
    merged

/-- The fields that a schema states by itself. -/
def ownFields (required : List Scalar) (properties : List (Scalar × Value)) (types : List Shape) :
    List Field :=
  (properties.zip types).map fun (property, type) =>
    { name := property.1, type, required := required.any (Scalar.same · property.1) }

/-- The schema of further values, if an object has one. -/
def furtherSchema? (schema : Value) : Option Value :=
  match schema.get "additionalProperties" with
  | .bool true => none
  | further => if further.isMap then some further else none

/-- The shape of further values, given that of their schema and that of the bases. -/
def furtherOf (schema : Value) (inherited further : Option Shape) : Option Shape :=
  match schema.get "additionalProperties" with
  | .bool true => some (.primitive .any false)
  | stated => if stated.isMap then further else inherited

/-- The shapes that an object is made of, with what the schema states besides. -/
structure Ingredients (schema : Value) (bases : List Value) where
  shapes : List Shape
  required : List Scalar
  properties : List (Scalar × Value)
  types : List Shape
  further : Option Shape
  shapes_length : shapes.length = bases.length
  required_eq : requiredNames schema = .ok required
  properties_eq : propertiesOf schema = .ok properties
  types_length : types.length = properties.length
  further_isSome : further.isSome = (furtherSchema? schema).isSome

namespace Ingredients

variable {schema : Value} {bases : List Value} (made : Ingredients schema bases)

/-- All definitions of fields, in order: those of the bases and then those of the schema. -/
def definitions : List Field :=
  made.shapes.flatMap Shape.fields ++ ownFields made.required made.properties made.types

def object (name : Option String) (nullable : Bool) : Shape :=
  let merged := joined ([], none) made.shapes
  let fields := addFields merged.1 (ownFields made.required made.properties made.types)
  .object name (fields.map Prod.snd) (furtherOf schema merged.2 made.further) nullable

/-- The schemas of the properties and of further values, with their shapes. -/
def parts : List (Value × Shape) :=
  (made.properties.map Prod.snd).zip made.types
    ++ (furtherSchema? schema).toList.zip made.further.toList

end Ingredients

section

variable {shapeOf : Converter} {trail : Trail} {progress final : Progress}

theorem run_absorb (name : Option String) (merged : List (Scalar × Field) × Option Shape)
    (shape : Shape) (progress : Progress) : ∃ warnings,
      (absorb name merged shape).run progress =
        (.ok (joined merged [shape]), { progress with warnings }) := by
  cases shape with
  | object => exact ⟨progress.warnings, rfl⟩
  | _ => exact ⟨progress.warnings ++ [.ignoredMember name], rfl⟩

theorem calls_of_mergeBases {name : Option String} {bases : List Value}
    {fields : List (Scalar × Field)} {additional : Option Shape}
    {merged : List (Scalar × Field) × Option Shape}
    (ran : (mergeBases shapeOf trail name fields additional bases).run progress =
      (.ok merged, final)) :
    ∃ shapes, shapes.length = bases.length ∧ merged = joined (fields, additional) shapes ∧
      Calls shapeOf trail progress (bases.zip shapes) final := by
  induction bases generalizing progress fields additional with
  | nil =>
    cases ran
    exact ⟨[], rfl, rfl, .nil _⟩
  | cons base bases ih =>
    rw [mergeBases_cons] at ran
    obtain ⟨shape, after, ran', ran⟩ := Conversion.run_bind_eq_ok ran
    obtain ⟨warnings, absorbs⟩ := run_absorb name (fields, additional) shape after
    rw [Conversion.run_bind_ok absorbs] at ran
    obtain ⟨shapes, same, rfl, calls⟩ := ih ran
    exact ⟨shape :: shapes, congrArg Nat.succ same, rfl, .cons progress.warnings ran' calls.aside⟩

theorem calls_of_mergeProperties {required : List Scalar} {entries : List (Scalar × Value)}
    {fields fields' : List (Scalar × Field)}
    (ran : (mergeProperties shapeOf trail required fields entries).run progress =
      (.ok fields', final)) :
    ∃ types, types.length = entries.length ∧
      fields' = addFields fields (ownFields required entries types) ∧
      Calls shapeOf trail progress ((entries.map Prod.snd).zip types) final := by
  induction entries generalizing progress fields with
  | nil =>
    cases ran
    exact ⟨[], rfl, rfl, .nil _⟩
  | cons entry entries ih =>
    obtain ⟨type, after, ran', ran⟩ := Conversion.run_bind_eq_ok ran
    obtain ⟨types, same, rfl, calls⟩ := ih ran
    exact ⟨type :: types, congrArg Nat.succ same, rfl, .cons progress.warnings ran' calls⟩

theorem calls_of_furtherShape {schema : Value} {inherited additional : Option Shape}
    (ran : (furtherShape shapeOf trail schema inherited).run progress = (.ok additional, final)) :
    ∃ further : Option Shape, further.isSome = (furtherSchema? schema).isSome ∧
      additional = furtherOf schema inherited further ∧
      Calls shapeOf trail progress ((furtherSchema? schema).toList.zip further.toList) final := by
  unfold furtherShape at ran
  unfold furtherSchema? furtherOf
  generalize schema.get "additionalProperties" = stated at ran ⊢
  split at ran
  next =>
    cases ran
    exact ⟨none, rfl, rfl, .nil _⟩
  next bounded =>
    split at ran
    next isMap =>
      obtain ⟨shape, after, ran', ran⟩ := Conversion.run_bind_eq_ok ran
      cases ran
      refine ⟨some shape, ?_, ?_, ?_⟩
      · simp [isMap]
      · simp [isMap]
      · simpa [isMap] using Calls.cons progress.warnings ran' (.nil final.warnings)
    next other =>
      cases ran
      refine ⟨none, ?_, ?_, ?_⟩
      · simp [other]
      · simp [other]
      · simpa [other] using @Calls.nil shapeOf trail progress progress.warnings

/-- An object is made of the shapes of its bases, of its properties and of further values. -/
theorem calls_of_objectShape {schema : Value} {name : Option String} {nullable : Bool}
    {bases : List Value} {shape : Shape}
    (ran : (objectShape shapeOf trail schema name nullable bases).run progress =
      (.ok shape, final)) :
    ∃ made : Ingredients schema bases, shape = made.object name nullable ∧
      Calls shapeOf trail progress (bases.zip made.shapes ++ made.parts) final := by
  rw [objectShape_eq] at ran
  obtain ⟨merged, _, ran', ran⟩ := Conversion.run_bind_eq_ok ran
  obtain ⟨shapes, shapes_length, rfl, first⟩ := calls_of_mergeBases ran'
  obtain ⟨required, _, ran', ran⟩ := Conversion.run_bind_eq_ok ran
  obtain ⟨required_eq, rfl⟩ := Prod.mk.inj ((Conversion.run_lift _ _).symm.trans ran')
  obtain ⟨properties, _, ran', ran⟩ := Conversion.run_bind_eq_ok ran
  obtain ⟨properties_eq, rfl⟩ := Prod.mk.inj ((Conversion.run_lift _ _).symm.trans ran')
  obtain ⟨fields, _, ran', ran⟩ := Conversion.run_bind_eq_ok ran
  obtain ⟨types, types_length, rfl, second⟩ := calls_of_mergeProperties ran'
  obtain ⟨additional, _, ran', ran⟩ := Conversion.run_bind_eq_ok ran
  obtain ⟨further, further_isSome, rfl, third⟩ := calls_of_furtherShape ran'
  cases ran
  exact ⟨⟨shapes, required, properties, types, further, shapes_length, required_eq, properties_eq,
    types_length, further_isSome⟩, rfl, first.append (second.append third)⟩

end

end ApiBinding.OpenApi
