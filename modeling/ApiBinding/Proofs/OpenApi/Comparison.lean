import ApiBinding.OpenApi.Schema
import ApiBinding.Proofs.Outcome

/-!
Conversions compared with one another. Any way to compare them that goes through single steps and
their sequence goes through the conversion of a schema, which touches its parts only by converting
them.
-/

namespace ApiBinding.OpenApi

namespace Conversion

variable {α β : Type}

@[simp] theorem run_pure (a : α) (progress : Progress) :
    (pure a : Conversion α).run progress = (.ok a, progress) := rfl

@[simp] theorem run_throw (failure : Failure) (progress : Progress) :
    (throw failure : Conversion α).run progress = (.error failure, progress) := rfl

@[simp] theorem run_lift (result : Except Failure α) (progress : Progress) :
    (liftM result : Conversion α).run progress = (result, progress) := by
  cases result <;> rfl

@[simp] theorem run_warn (warning : Warning) (progress : Progress) :
    (warn warning).run progress =
      (.ok (), { progress with warnings := progress.warnings ++ [warning] }) := rfl

@[simp] theorem run_get (progress : Progress) :
    (get : Conversion Progress).run progress = (.ok progress, progress) := rfl

@[simp] theorem run_modify (f : Progress → Progress) (progress : Progress) :
    (modify f : Conversion Unit).run progress = (.ok (), f progress) := rfl

theorem run_bind (first : Conversion α) (next : α → Conversion β) (progress : Progress) :
    (first >>= next).run progress =
      match first.run progress with
      | (.ok a, after) => (next a).run after
      | (.error failure, after) => (.error failure, after) := by
  show ExceptT.bindCont next (first.run progress).1 (first.run progress).2 = _
  rcases first.run progress with ⟨_ | a, after⟩ <;> rfl

theorem run_bind_ok {first : Conversion α} {next : α → Conversion β} {progress after : Progress}
    {a : α} (ran : first.run progress = (.ok a, after)) :
    (first >>= next).run progress = (next a).run after := by
  rw [run_bind, ran]

theorem run_bind_error {first : Conversion α} {next : α → Conversion β}
    {progress after : Progress} {failure : Failure}
    (ran : first.run progress = (.error failure, after)) :
    (first >>= next).run progress = (.error failure, after) := by
  rw [run_bind, ran]

theorem run_map (f : α → β) (conversion : Conversion α) (progress : Progress) :
    (f <$> conversion).run progress =
      ((conversion.run progress).1.map f, (conversion.run progress).2) := by
  rw [map_eq_pure_bind, run_bind]
  rcases conversion.run progress with ⟨failure | a, after⟩ <;> rfl

end Conversion

theorem lift_ok_bind {α β : Type} (a : α) (next : α → Conversion β) :
    ((liftM (.ok a : Except Failure α) : Conversion α) >>= next) = next a := rfl

/-- Takes a member of a conjunction into the fields and the further values before it. -/
def absorb (name : Option String) (merged : List (Scalar × Field) × Option Shape) :
    Shape → Conversion (List (Scalar × Field) × Option Shape)
  | .object _ fields additional _ =>
    return (addFields merged.1 fields, merged.2.or additional)
  | _ => do
    warn (.ignoredMember name)
    return merged

theorem mergeBases_cons (shapeOf : Converter) (trail : Trail) (name : Option String)
    (fields : List (Scalar × Field)) (additional : Option Shape) (base : Value)
    (rest : List Value) :
    mergeBases shapeOf trail name fields additional (base :: rest) = (do
      let shape ← shapeOf trail base
      let merged ← absorb name (fields, additional) shape
      mergeBases shapeOf trail name merged.1 merged.2 rest) := by
  rw [mergeBases]
  congr 1
  funext shape
  cases shape <;> simp [absorb]

/-- The shape of further values that a schema states, or that of its bases. -/
def furtherShape (shapeOf : Converter) (trail : Trail) (schema : Value)
    (additional : Option Shape) : Conversion (Option Shape) :=
  match schema.get "additionalProperties" with
  | .bool true => return some (Shape.primitive .any false)
  | further =>
    if further.isMap then do return some (← shapeOf trail further) else return additional

theorem objectShape_eq (shapeOf : Converter) (trail : Trail) (schema : Value)
    (name : Option String) (nullable : Bool) (bases : List Value) :
    objectShape shapeOf trail schema name nullable bases = (do
      let merged ← mergeBases shapeOf trail name [] none bases
      let required ← requiredNames schema
      let entries ← propertiesOf schema
      let fields ← mergeProperties shapeOf trail required merged.1 entries
      let additional ← furtherShape shapeOf trail schema merged.2
      return .object name (fields.map Prod.snd) additional nullable) := by
  unfold objectShape furtherShape
  congr 1
  funext merged
  simp only
  congr 1
  funext required
  congr 1
  funext entries
  congr 1
  funext fields
  generalize schema.get "additionalProperties" = further
  split
  next => simp
  next other => split <;> simp_all

theorem get?_of_get {schema : Value} {key : String} (h : schema.get key ≠ .null) :
    schema.get? key = some (schema.get key) := by
  cases found : schema.get? key with
  | none => exact absurd (by rw [Value.get, found]; rfl) h
  | some part => rw [Value.get, found, Option.getD_some]

/-- The keys under which a schema lists the schemas that it unites or joins. -/
def listKeys : List String := ["oneOf", "anyOf", "allOf"]

/-- The keys under which a schema has a single schema. -/
def partKeys : List String := ["additionalProperties", "items"]

/-- The values that the conversion of a schema may convert in turn. -/
inductive Part (schema : Value) : Value → Prop
  | element {key : String} {elements : List Value} {part : Value} (known : key ∈ listKeys)
      (found : (schema.get key).elements = .ok elements) (member : part ∈ elements) :
      Part schema part
  | first {part : Value} (found : (schema.get "allOf").first = .ok part) : Part schema part
  | property {entries : List (Scalar × Value)} {entry : Scalar × Value}
      (found : propertiesOf schema = .ok entries) (member : entry ∈ entries) :
      Part schema entry.2
  | under {key : String} {part : Value} (known : key ∈ partKeys)
      (found : schema.get? key = some part) : Part schema part

/-- The mark of a conversion that never ends, or went too deep. -/
abbrev endless : Failure := .misuse .endless

/-- Whether a failure is one that a conversion ends in. -/
def IsOrdinary (failure : Failure) : Prop := failure ≠ endless

instance (failure : Failure) : Decidable (IsOrdinary failure) := by
  unfold IsOrdinary
  infer_instance

section ordinary

variable {v schema : Value}

theorem elements_ordinary : FailsOnly IsOrdinary v.elements := by
  unfold Value.elements
  split <;> simp [IsOrdinary]

theorem entries_ordinary : FailsOnly IsOrdinary v.entries := by
  unfold Value.entries
  split <;> simp [IsOrdinary]

theorem first_ordinary : FailsOnly IsOrdinary v.first := by
  unfold Value.first
  split
  next => split <;> simp [IsOrdinary]
  next => simp [IsOrdinary]
  next =>
    refine elements_ordinary.bind fun elements _ => ?_
    cases elements <;> simp [IsOrdinary]

theorem checkWritable_ordinary : FailsOnly IsOrdinary v.checkWritable := by
  unfold Value.checkWritable
  split <;> simp [IsOrdinary]

theorem requiredNames_ordinary : FailsOnly IsOrdinary (requiredNames schema) := by
  unfold requiredNames
  split
  next => simp
  next names _ =>
    refine elements_ordinary.bind fun elements _ => ?_
    refine (FailsOnly.mapM fun name _ => ?_).bind fun _ _ => FailsOnly.ok _
    unfold requiredName?
    split
    next => simp
    next => split <;> simp [IsOrdinary]

theorem propertiesOf_ordinary : FailsOnly IsOrdinary (propertiesOf schema) := by
  unfold propertiesOf
  split
  next => simp
  next => exact entries_ordinary

theorem enumerationShape_ordinary {name : Option String} {nullable : Bool} :
    FailsOnly IsOrdinary (enumerationShape name nullable v) := by
  refine elements_ordinary.bind fun members _ => ?_
  split
  next => simp
  next =>
    refine FailsOnly.bind ?_ fun _ _ => FailsOnly.ok _
    unfold enumeratesNull
    split
    next => simp [IsOrdinary]
    next => exact elements_ordinary.bind fun _ _ => FailsOnly.ok _

theorem referenced_ordinary {reference : String} :
    FailsOnly IsOrdinary (referenced v reference) := by
  unfold referenced
  split
  next =>
    unfold atFragment
    split <;> simp [IsOrdinary]
  next => simp [IsOrdinary]

end ordinary

/-- A way to compare conversions with one another and, by equality or not at all, their results. -/
structure Comparison where
  alike : {α : Type} → α → α → Prop
  holds : {α : Type} → Conversion α → Conversion α → Prop
  refl : ∀ {α : Type} (a : α), alike a a
  map₂ : ∀ {α β γ : Type} (f : α → β → γ) {a a' : α} {b b' : β},
    alike a a' → alike b b' → alike (f a b) (f a' b')
  pure : ∀ {α : Type} {a a' : α}, alike a a' → holds (pure a) (pure a')
  fail : ∀ {α : Type} {failure : Failure}, IsOrdinary failure →
    holds (throw failure : Conversion α) (throw failure)
  bind : ∀ {α β : Type} {first first' : Conversion α} {next next' : α → Conversion β},
    holds first first' → (∀ a a', alike a a' → holds (next a) (next' a')) →
    holds (first >>= next) (first' >>= next')
  lift : ∀ {α β : Type} {result : Except Failure α} {next next' : α → Conversion β},
    FailsOnly IsOrdinary result → (∀ a, result = .ok a → holds (next a) (next' a)) →
    holds ((liftM result : Conversion α) >>= next) ((liftM result : Conversion α) >>= next')
  absorb : ∀ (name : Option String) {merged merged' : List (Scalar × Field) × Option Shape}
    {shape shape' : Shape}, alike merged merged' → alike shape shape' →
    holds (absorb name merged shape) (OpenApi.absorb name merged' shape')

namespace Comparison

variable (comparison : Comparison) {shapeOf shapeOf' : Converter} {trail trail' : Trail}

theorem map {α β : Type} (f : α → β) {a a' : α} (h : comparison.alike a a') :
    comparison.alike (f a) (f a') :=
  comparison.map₂ (fun a _ => f a) h (comparison.refl ())

theorem lifted {α : Type} {result : Except Failure α} (ordinary : FailsOnly IsOrdinary result) :
    comparison.holds (liftM result : Conversion α) (liftM result) := by
  rw [← bind_pure (liftM result : Conversion α)]
  exact comparison.lift ordinary fun a _ => comparison.pure (comparison.refl a)

theorem mergeBases (name : Option String) {bases : List Value}
    (parts : ∀ base ∈ bases, comparison.holds (shapeOf trail base) (shapeOf' trail' base))
    {fields fields' : List (Scalar × Field)} {additional additional' : Option Shape}
    (alikeFields : comparison.alike fields fields')
    (alikeAdditional : comparison.alike additional additional') :
    comparison.holds (mergeBases shapeOf trail name fields additional bases)
      (OpenApi.mergeBases shapeOf' trail' name fields' additional' bases) := by
  induction bases generalizing fields fields' additional additional' with
  | nil => exact comparison.pure (comparison.map₂ Prod.mk alikeFields alikeAdditional)
  | cons base bases ih =>
    rw [mergeBases_cons, mergeBases_cons]
    refine comparison.bind (parts base (by simp)) fun shape shape' alike => ?_
    refine comparison.bind (comparison.absorb name
      (comparison.map₂ Prod.mk alikeFields alikeAdditional) alike) fun merged merged' alike => ?_
    exact ih (fun other h => parts other (by simp [h])) (comparison.map Prod.fst alike)
      (comparison.map Prod.snd alike)

theorem mergeProperties (required : List Scalar) {entries : List (Scalar × Value)}
    (parts : ∀ entry ∈ entries, comparison.holds (shapeOf trail entry.2) (shapeOf' trail' entry.2))
    {fields fields' : List (Scalar × Field)} (alikeFields : comparison.alike fields fields') :
    comparison.holds (mergeProperties shapeOf trail required fields entries)
      (OpenApi.mergeProperties shapeOf' trail' required fields' entries) := by
  induction entries generalizing fields fields' with
  | nil => exact comparison.pure alikeFields
  | cons entry entries ih =>
    refine comparison.bind (parts entry (by simp)) fun shape shape' alike => ?_
    refine ih (fun other h => parts other (by simp [h])) ?_
    exact comparison.map₂ (fun shape fields => Entries.put Scalar.same entry.1
      { name := entry.1, type := shape, required := required.any (Scalar.same · entry.1) } fields)
      alike alikeFields

section

variable {schema : Value}
  (parts : ∀ part, Part schema part → comparison.holds (shapeOf trail part) (shapeOf' trail' part))

include parts

theorem furtherShape {additional additional' : Option Shape}
    (alike : comparison.alike additional additional') :
    comparison.holds (furtherShape shapeOf trail schema additional)
      (OpenApi.furtherShape shapeOf' trail' schema additional') := by
  unfold OpenApi.furtherShape
  split
  next => exact comparison.pure (comparison.refl _)
  next =>
    split
    next isMap =>
      have known : "additionalProperties" ∈ partKeys := by simp [partKeys]
      have filled : schema.get "additionalProperties" ≠ .null := fun null => by
        rw [null] at isMap
        cases isMap
      have found := get?_of_get filled
      refine comparison.bind (parts _ (.under known found)) fun shape shape' alike => ?_
      exact comparison.pure (comparison.map some alike)
    next => exact comparison.pure alike

theorem objectShape (name : Option String) (nullable : Bool) {bases : List Value}
    (members : ∀ base ∈ bases, Part schema base) :
    comparison.holds (objectShape shapeOf trail schema name nullable bases)
      (OpenApi.objectShape shapeOf' trail' schema name nullable bases) := by
  rw [objectShape_eq, objectShape_eq]
  refine comparison.bind (comparison.mergeBases name (fun base h => parts base (members base h))
    (comparison.refl []) (comparison.refl none)) fun merged merged' alike => ?_
  refine comparison.lift requiredNames_ordinary fun required _ => ?_
  refine comparison.lift propertiesOf_ordinary fun entries found => ?_
  refine comparison.bind (comparison.mergeProperties required
    (fun entry h => parts entry.2 (.property found h)) (comparison.map Prod.fst alike))
    fun fields fields' alikeFields => ?_
  refine comparison.bind (comparison.furtherShape parts (comparison.map Prod.snd alike))
    fun additional additional' alikeAdditional => comparison.pure ?_
  exact comparison.map₂ (fun fields additional => Shape.object name (List.map Prod.snd fields)
    additional nullable) alikeFields alikeAdditional

theorem unionShape {key : String} (known : key ∈ listKeys) (nullable : Bool) :
    comparison.holds (unionShape shapeOf trail key nullable (schema.get key))
      (OpenApi.unionShape shapeOf' trail' key nullable (schema.get key)) := by
  refine comparison.lift elements_ordinary fun members found => ?_
  split
  next only same =>
    have member : only ∈ members := by
      have : only ∈ members.filter fun member => !allowsNullOnly member := by simp [same]
      exact List.mem_of_mem_filter this
    refine comparison.bind (parts only (.element known found member)) fun shape shape' alike => ?_
    exact comparison.pure (comparison.map _ alike)
  next => exact comparison.pure (comparison.refl _)

theorem conjunctionShape (name : Option String) (nullable : Bool) :
    comparison.holds (conjunctionShape shapeOf trail schema name nullable (schema.get "allOf"))
      (OpenApi.conjunctionShape shapeOf' trail' schema name nullable (schema.get "allOf")) := by
  refine comparison.lift elements_ordinary fun bases found => ?_
  split
  next =>
    refine comparison.lift first_ordinary fun only found => ?_
    refine comparison.bind (parts only (.first found)) fun shape shape' alike => ?_
    exact comparison.pure (comparison.map _ alike)
  next =>
    have known : "allOf" ∈ listKeys := by simp [listKeys]
    exact comparison.objectShape parts name nullable fun base h => .element known found h

theorem typedShape (name : Option String) (nullable : Bool) :
    comparison.holds (typedShape shapeOf trail schema name nullable)
      (OpenApi.typedShape shapeOf' trail' schema name nullable) := by
  unfold OpenApi.typedShape
  split
  next => exact comparison.pure (comparison.refl _)
  next =>
    dsimp only
    split
    next =>
      have known : "items" ∈ partKeys := by simp [partKeys]
      have items := fun found => parts (schema.get "items") (.under known found)
      have found : schema.get "items" ≠ .null → schema.get? "items" = some (schema.get "items") :=
        get?_of_get
      generalize schema.get "items" = element at items found ⊢
      split
      next => exact comparison.pure (comparison.refl _)
      next some =>
        refine comparison.bind (items (found some)) fun shape shape' alike => ?_
        exact comparison.pure (comparison.map (Shape.array · nullable true) alike)
    next =>
      split
      next => exact comparison.objectShape parts name nullable (by simp)
      next =>
        split
        next => exact comparison.pure (comparison.refl _)
        next =>
          exact comparison.lift checkWritable_ordinary fun _ _ =>
            comparison.pure (comparison.refl _)

theorem inlineShape (name : Option String) :
    comparison.holds (inlineShape shapeOf trail schema name)
      (OpenApi.inlineShape shapeOf' trail' schema name) := by
  unfold OpenApi.inlineShape
  dsimp only
  split
  next => exact comparison.unionShape parts (by simp [listKeys]) _
  next =>
    split
    next => exact comparison.unionShape parts (by simp [listKeys]) _
    next =>
      split
      next => exact comparison.conjunctionShape parts name _
      next =>
        split
        next => exact comparison.lifted enumerationShape_ordinary
        next => exact comparison.typedShape parts name _

end

end Comparison

end ApiBinding.OpenApi
