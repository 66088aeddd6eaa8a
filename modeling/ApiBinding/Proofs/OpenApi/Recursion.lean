import ApiBinding.Proofs.Entries
import ApiBinding.Proofs.OpenApi.Keeping
import ApiBinding.Proofs.OpenApi.Reference
import ApiBinding.Proofs.Shape
import ApiBinding.TypeHint

/-!
References to schemas by name: a schema of objects has the same type hint where it is converted and
where only its name stands for it.
-/

namespace ApiBinding.OpenApi

open Identifier (ofRaw)

/-- The shape that stands for a schema with a name inside of the schema itself. -/
def stub (name : String) : Shape := .object (some name) [] none false

def isStub (name : String) : Shape → Bool
  | .object (some own) [] none false => own == name
  | _ => false

theorem eq_stub_of_isStub {shape : Shape} {name : String} (h : isStub name shape = true) :
    shape = stub name := by
  unfold isStub at h
  split at h
  next own => rw [stub, ← beq_iff_eq.mp h]
  next => cases h

/-- Whether a schema joins several others, or properties to others. -/
def IsConjunction (schema : Value) : Prop :=
  (schema.get "allOf").truth = true ∧
    ((schema.get "properties").truth = true ∨
      ∀ members, (schema.get "allOf").elements = .ok members → members.length ≠ 1)

/-- Whether a schema states the properties of objects by itself. -/
def IsPlainObject (schema : Value) : Prop :=
  (schema.get "allOf").truth = false ∧ (schema.get "enum").truth = false ∧
    (∀ other ∈ ["string", "file", "integer", "number", "boolean", "array"],
      (statedType schema).isText other = false) ∧
    ((statedType schema).isText "object" = true ∨ (schema.get? "properties").isSome = true ∨
      (schema.get? "additionalProperties").isSome = true)

/-- Whether a schema is one of objects, rather than a reference, a union, or another name for the
only member of a conjunction. -/
structure IsObjectSchema (schema : Value) : Prop where
  whole : (schema.get? referenceKey).isSome = false
  noOneOf : (schema.get "oneOf").truth = false
  noAnyOf : (schema.get "anyOf").truth = false
  kind : IsConjunction schema ∨ IsPlainObject schema

theorem objectShape_result {shapeOf : Converter} {trail : Trail} {schema : Value}
    {name : Option String} {nullable : Bool} {bases : List Value} {progress final : Progress}
    {shape : Shape}
    (h : (objectShape shapeOf trail schema name nullable bases).run progress = (.ok shape, final)) :
    ∃ fields additional, shape = .object name fields additional nullable := by
  rw [objectShape_eq] at h
  obtain ⟨merged, _, _, h⟩ := Conversion.run_bind_eq_ok h
  obtain ⟨required, _, _, h⟩ := Conversion.run_bind_eq_ok h
  obtain ⟨entries, _, _, h⟩ := Conversion.run_bind_eq_ok h
  obtain ⟨fields, _, _, h⟩ := Conversion.run_bind_eq_ok h
  obtain ⟨additional, _, _, h⟩ := Conversion.run_bind_eq_ok h
  cases h
  exact ⟨_, _, rfl⟩

theorem simpleShape?_eq_none {schema : Value} {nullable : Bool}
    (other : ∀ other ∈ ["string", "file", "integer", "number", "boolean", "array"],
      (statedType schema).isText other = false) : simpleShape? schema nullable = none := by
  unfold simpleShape?
  generalize statedType schema = type at other
  split
  next => simpa [Value.isText] using other "string" (by simp)
  next => simpa [Value.isText] using other "file" (by simp)
  next => simpa [Value.isText] using other "integer" (by simp)
  next => simpa [Value.isText] using other "number" (by simp)
  next => simpa [Value.isText] using other "boolean" (by simp)
  next => rfl

/-- A schema of objects gives an object of its name, which may be null if the schema says so. -/
theorem IsObjectSchema.result {schema : Value} (object : IsObjectSchema schema)
    {shapeOf : Converter} {trail : Trail} {name : Option String} {progress final : Progress}
    {shape : Shape}
    (h : (inlineShape shapeOf trail schema name).run progress = (.ok shape, final)) :
    ∃ fields additional, shape = .object name fields additional (allowsNull schema) := by
  unfold inlineShape at h
  simp only [object.noOneOf, object.noAnyOf, Bool.false_eq_true, if_false] at h
  rcases object.kind with ⟨joined, several⟩ | ⟨single, open', other, stated⟩
  · rw [if_pos joined] at h
    obtain ⟨members, _, found, h⟩ := Conversion.run_bind_eq_ok h
    have more : ¬(members.length = 1 ∧ (schema.get "properties").truth = false) := by
      rintro ⟨one, bare⟩
      rcases several with properties | others
      · simp [bare] at properties
      · rw [Conversion.run_lift] at found
        exact others members (congrArg Prod.fst found) one
    rw [if_neg more] at h
    exact objectShape_result h
  · simp only [single, open', Bool.false_eq_true, if_false] at h
    have object : ((statedType schema).isText "object" || (schema.get? "properties").isSome
        || (schema.get? "additionalProperties").isSome) = true := by
      rcases stated with h | h | h <;> simp [h]
    simp only [typedShape, simpleShape?_eq_none other, other "array" (by simp), object,
      Bool.false_eq_true, if_false, if_true] at h
    exact objectShape_result h

/-- Whether a shape is one that a target of a name may give. -/
def IsShapeOf (document : Value) (name : String) (shape : Shape) : Prop :=
  ∃ reference target, namedSchema? reference = some name ∧
    referenced document reference = .ok target ∧
    (IsObjectSchema target →
      ∃ fields additional, shape = .object (some name) fields additional (allowsNull target))

theorem isShapeOf_of_targetShape {document : Value} {shapeOf : Converter}
    {reference name : String} {progress final : Progress} {shape : Shape}
    (named : namedSchema? reference = some name)
    (h : (targetShape document shapeOf reference name).run progress = (.ok shape, final)) :
    IsShapeOf document name shape := by
  obtain ⟨target, _, found, h⟩ := Conversion.run_bind_eq_ok h
  rw [Conversion.run_lift] at found
  refine ⟨reference, target, named, congrArg Prod.fst found, fun object => ?_⟩
  split at h
  next =>
    rw [object.whole, if_neg Bool.false_ne_true] at h
    exact object.result h
  next => cases h

/-- What holds of every shape that a name is given by its target holds of all that are known. -/
theorem known_steady {document : Value} {motive : String → Shape → Prop}
    (given : ∀ {shapeOf : Converter} {reference name : String} {progress final : Progress}
      {shape : Shape}, namedSchema? reference = some name →
      (targetShape document shapeOf reference name).run progress = (.ok shape, final) →
      motive name shape) :
    Steady document fun before after =>
      (∀ name shape, Entries.get? (· == ·) name before.named = some shape → motive name shape) →
      ∀ name shape, Entries.get? (· == ·) name after.named = some shape → motive name shape where
  refl _ h := h
  trans first second h := second (first h)
  ignored _ _ h := h
  settled := by
    intro shapeOf reference name progress named fresh target kept known
    have known := kept known
    rcases ran : target with ⟨_ | shape, after⟩
    · rw [ran] at known
      exact known
    · rw [ran] at known
      intro other found
      show Entries.get? (· == ·) other (Entries.put (· == ·) name shape after.named) = _ → _
      rw [Entries.get?_put]
      split
      next same =>
        intro here
        obtain rfl := Option.some.inj here
        obtain rfl := same
        exact given named ran
      next => exact known other found

/-- The progress in which a conversion may find a document: after any conversions of schemas, while
any names are pending. -/
inductive Reached (document : Value) : Progress → Prop
  | start : Reached document {}
  | converted {progress : Progress} (reached : Reached document progress) (depth : Nat)
      (trail : Trail) (schema : Value) :
      Reached document ((shapeAt document depth trail schema).run progress).2
  | aside {progress : Progress} (reached : Reached document progress) (pending : List String)
      (warnings : List Warning) : Reached document { progress with pending, warnings }

theorem Reached.known {document : Value} {progress : Progress} {motive : String → Shape → Prop}
    (reached : Reached document progress)
    (given : ∀ {shapeOf : Converter} {reference name : String} {progress final : Progress}
      {shape : Shape}, namedSchema? reference = some name →
      (targetShape document shapeOf reference name).run progress = (.ok shape, final) →
      motive name shape) :
    ∀ name shape, Entries.get? (· == ·) name progress.named = some shape → motive name shape := by
  induction reached with
  | start =>
    intro name shape h
    cases h
  | converted _ depth trail schema ih => exact (known_steady given).shapeAt depth trail schema _ ih
  | aside _ _ _ ih => exact ih

theorem ofShape?_of_declaredName? {shape : Shape} {name : String}
    (declared : shape.declaredName? = some name) (context : TypeHint.Context) :
    TypeHint.ofShape? context shape = .ok (.named (ofRaw .type name) true shape.nullable) := by
  cases shape with
  | object own fields additional nullable =>
    have label : Shape.label? own = some name := declared
    cases additional with
    | none => simp [TypeHint.ofShape?, TypeHint.canSpell, TypeHint.ofShape, label, Shape.nullable]
    | some value =>
      simp [TypeHint.ofShape?, TypeHint.canSpell, TypeHint.ofShape, label, Shape.nullable]
  | enumeration own members nullable =>
    have label : Shape.label? own = some name := declared
    simp [TypeHint.ofShape?, TypeHint.canSpell, TypeHint.ofShape, label, Shape.nullable]
  | primitive => cases declared
  | array => cases declared
  | generic => cases declared
  | unknown => cases declared

theorem ofShape?_object {name : String} (labelled : name ≠ "") (fields : List Field)
    (additional : Option Shape) (nullable : Bool) (context : TypeHint.Context) :
    TypeHint.ofShape? context (.object (some name) fields additional nullable) =
      .ok (.named (ofRaw .type name) true nullable) := by
  have label : Shape.label? (some name) = some name := by simp [Shape.label?, labelled]
  have declared : (Shape.object (some name) fields additional nullable).declaredName? = some name :=
    label
  exact ofShape?_of_declaredName? declared context

/-- Wherever a reference to a schema of objects is converted, it has the type hint of the name that
stands for the schema inside of itself. -/
theorem reference_typed_by_name {document : Value} {progress : Progress}
    (reached : Reached document progress) {name : String} (labelled : name ≠ "")
    (objects : ∀ place ∈ schemaKeys, ∀ target, follow? document (place ++ [name]) = some target →
      IsObjectSchema target ∧ allowsNull target = false)
    {reference : String} (named : namedSchema? reference = some name) {depth : Nat}
    {trail : Trail} {shape : Shape}
    (converted : ((referenceShape document (shapeAt document depth) trail reference).run
      progress).1 = .ok shape) (context : TypeHint.Context) (nullable : Bool) :
    TypeHint.ofShape? context (nullIf nullable shape) =
        .ok (.named (ofRaw .type name) true nullable) ∧
      TypeHint.ofShape? context (nullIf nullable (stub name)) =
        .ok (.named (ofRaw .type name) true nullable) := by
  have object : ∃ fields additional, shape = .object (some name) fields additional false := by
    have whole (h : IsShapeOf document name shape) :
        ∃ fields additional, shape = .object (some name) fields additional false := by
      obtain ⟨reference, target, named, found, states⟩ := h
      obtain ⟨place, known, leads⟩ := follow?_of_named named found
      obtain ⟨object, present⟩ := objects place known target leads
      rw [← present]
      exact states object
    rw [run_referenceShape named] at converted
    split at converted
    next kept found =>
      obtain rfl := Except.ok.inj converted
      exact whole (reached.known isShapeOf_of_targetShape name kept found)
    next =>
      split at converted
      next => exact ⟨[], none, (Except.ok.inj converted).symm⟩
      next => exact whole (isShapeOf_of_targetShape named (Prod.ext converted rfl))
  obtain ⟨fields, additional, rfl⟩ := object
  cases nullable with
  | false => exact ⟨ofShape?_object labelled .., ofShape?_object labelled ..⟩
  | true => exact ⟨ofShape?_object labelled .., ofShape?_object labelled ..⟩

/-- The object with entries under the given keys. -/
def mapping (entries : List (String × Value)) : Value :=
  .map (entries.map fun entry => (.text entry.1, entry.2))

def referTo (name : String) : Value := mapping [("$ref", .text ("#/components/schemas/" ++ name))]

def withSchemas (schemas : List (String × Value)) : Value :=
  mapping [("components", mapping [("schemas", mapping schemas)])]

def objectWith (properties : List (String × Value)) : Value :=
  mapping [("type", .text "object"), ("properties", mapping properties)]

def person : Value := objectWith [("friend", referTo "Person")]

def people : Value := withSchemas [("Person", person)]

theorem person_typed_by_name :
    ∃ shape,
      ((referenceShape people (shapeAt people 9) [] "#/components/schemas/Person").run {}).1
        = .ok shape ∧
      ∀ context, TypeHint.ofShape? context shape = .ok (.named "Person" true false) ∧
        TypeHint.ofShape? context (stub "Person") = .ok (.named "Person" true false) := by
  obtain ⟨shape, converted⟩ : ∃ shape,
      ((referenceShape people (shapeAt people 9) [] "#/components/schemas/Person").run {}).1
        = .ok shape := exists_eq_ok (by decide +kernel)
  have object : IsObjectSchema person :=
    ⟨by decide, by decide, by decide, .inr ⟨by decide, by decide, by decide, .inl (by decide)⟩⟩
  have objects : ∀ place ∈ schemaKeys, ∀ target,
      follow? people (place ++ ["Person"]) = some target →
      IsObjectSchema target ∧ allowsNull target = false := by
    intro place known target leads
    simp only [schemaKeys, List.mem_cons, List.not_mem_nil, or_false] at known
    rcases known with rfl | rfl
    · obtain rfl : person = target := Option.some.inj leads
      exact ⟨object, by decide⟩
    · cases leads
  have same : ofRaw .type "Person" = "Person" := by decide +kernel
  refine ⟨shape, converted, fun context => ?_⟩
  have typed := reference_typed_by_name .start (by decide) objects (by decide) converted context
    false
  rw [same] at typed
  exact typed

/-- Two names for one schema: the second of them stands for the first one inside of it. -/
def twoNames : Value :=
  withSchemas [("Alias", referTo "Item"), ("Item", objectWith [("next", referTo "Alias")])]

/-- A name that refers on to another schema is not typed like what stands for it. -/
theorem alias_typed_by_other_name :
    ∃ shape, ((shapeOf twoNames (referTo "Alias")).run {}).1 = .ok shape ∧
      shape.fields.map FieldOf.type = [stub "Alias"] ∧
      ∀ context, TypeHint.ofShape? context shape = .ok (.named "Item" true false) ∧
        TypeHint.ofShape? context (stub "Alias") = .ok (.named "Alias" true false) := by
  obtain ⟨shape, converted⟩ :
      ∃ shape, ((shapeOf twoNames (referTo "Alias")).run {}).1 = .ok shape :=
    exists_eq_ok (by decide +kernel)
  have seen : ((shapeOf twoNames (referTo "Alias")).run {}).1.toOption.map (fun shape =>
      (shape.declaredName?, shape.nullable,
        shape.fields.map fun field => isStub "Alias" field.type)) =
      some (some "Item", false, [true]) := by decide +kernel
  rw [converted] at seen
  obtain ⟨declared, seen⟩ := Prod.mk.inj (Option.some.inj seen)
  obtain ⟨present, cut⟩ := Prod.mk.inj seen
  have first : ofRaw .type "Item" = "Item" := by decide +kernel
  have second : ofRaw .type "Alias" = "Alias" := by decide +kernel
  refine ⟨shape, converted, ?_, fun context => ⟨?_, ?_⟩⟩
  · obtain ⟨field, only, isStub⟩ := List.map_eq_singleton_iff.mp cut
    rw [only, List.map_singleton, eq_stub_of_isStub isStub]
  · rw [ofShape?_of_declaredName? declared, first, present]
  · rw [stub, ofShape?_object (by decide), second]

end ApiBinding.OpenApi
