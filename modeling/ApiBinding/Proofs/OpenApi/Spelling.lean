import ApiBinding.Proofs.OpenApi.Enough
import ApiBinding.Proofs.OpenApi.Null

/-!
The ways to say that the values of a schema may be null as well: they all give the shape of the
schema, in which null is allowed.
-/

namespace ApiBinding

/-- The entries of a value with one of them set. -/
def Value.withEntry (key : String) (v part : Value) : Value :=
  match v.opened with
  | .map entries => .map (Entries.put Scalar.same (.text key) part entries)
  | other => other

theorem Entries.get?_put_text {key other : String} {part : Value}
    {entries : List (Scalar × Value)} :
    get? Scalar.same (.text other) (put Scalar.same (.text key) part entries) =
      if other = key then some part else get? Scalar.same (.text other) entries := by
  induction entries with
  | nil =>
    by_cases same : other = key
    · simp [put, get?, Scalar.same_text_iff, same]
    · simp [put, get?, Scalar.same_text_iff, same, Ne.symm same]
  | cons entry entries ih =>
    by_cases here : entry.1 = .text key
    · have differs : ¬other = key → (Scalar.text key).same (.text other) = false := fun different =>
        Bool.eq_false_iff.mpr fun same =>
          different (Scalar.text.inj (Scalar.same_text_iff.mp same)).symm
      by_cases same : other = key
      · simp [put, get?, here, Scalar.same_text_iff, same]
      · simp [put, get?, here, same, differs same, Scalar.same_text_iff]
    · have other' : ¬entry.1.same (.text key) = true := mt Scalar.same_text_iff.mp here
      rw [put, if_neg other', get?, get?, ih]
      by_cases same : other = key
      · simp [same, other']
      · simp [same]

theorem Value.withEntry_eq_map {v : Value} (isMap : v.isMap = true) (key : String) (part : Value) :
    ∃ entries, v.withEntry key part = .map entries := by
  obtain ⟨entries, opened⟩ := opened_of_isMap isMap
  exact ⟨_, by rw [withEntry, opened]⟩

theorem Value.isMap_withEntry {v part : Value} (isMap : v.isMap = true) (key : String) :
    (v.withEntry key part).isMap = true := by
  obtain ⟨entries, same⟩ := withEntry_eq_map isMap key part
  rw [same]
  rfl

theorem Value.get?_withEntry {v part : Value} (isMap : v.isMap = true) (key other : String) :
    (v.withEntry key part).get? other = if other = key then some part else v.get? other := by
  obtain ⟨entries, opened⟩ := opened_of_isMap isMap
  rw [withEntry, Value.get?, Value.get?, opened]
  exact Entries.get?_put_text

theorem Value.entriesFinite_put {same : Scalar → Scalar → Bool} {key : Scalar} {part : Value}
    {entries : List (Scalar × Value)} (finite : part.isFinite = true)
    (rest : entriesFinite entries = true) :
    entriesFinite (Entries.put same key part entries) = true := by
  induction entries with
  | nil => simp [Entries.put, entriesFinite, finite]
  | cons entry entries ih =>
    rw [entriesFinite, Bool.and_eq_true] at rest
    rw [Entries.put]
    split
    next => rw [entriesFinite, finite, rest.2, Bool.and_self]
    next => rw [entriesFinite, rest.1, ih rest.2, Bool.and_self]

theorem Value.isFinite_withEntry {v part : Value} (whole : v.isFinite = true)
    (finite : part.isFinite = true) (key : String) : (v.withEntry key part).isFinite = true := by
  unfold withEntry
  rw [opened_of_finite whole]
  split
  next entries => exact entriesFinite_put finite whole
  next => exact whole

@[simp] theorem Shape.orNull_orNull (shape : Shape) : shape.orNull.orNull = shape.orNull := by
  cases shape <;> rfl

namespace OpenApi

@[simp] theorem nullIf_true (shape : Shape) : nullIf true shape = shape.orNull := rfl

@[simp] theorem orNull_nullIf (nullable : Bool) (shape : Shape) :
    (nullIf nullable shape).orNull = shape.orNull := by
  cases nullable <;> simp [nullIf]

/-- Whether a schema states the same as another one and that its values may be null. -/
structure StatesNullToo (schema other : Value) : Prop where
  isMap : other.isMap = true
  into : ∀ trail : Trail, trail.into other = .ok trail
  null : allowsNull other = true
  type : statedType other = statedType schema
  rest : ∀ key, key ∉ ["nullable", "x-nullable", "type"] → other.get? key = schema.get? key

/-- Whether a schema lists its values in a text, or in bytes, of which the characters are taken for
them. -/
def EnumeratesText (schema : Value) : Prop :=
  (schema.get "enum").truth = true ∧
    ((∃ text, schema.get "enum" = .text text) ∨ ∃ bytes, schema.get "enum" = .scalar (.bytes bytes))

section

variable {shapeOf : Converter} {trail : Trail} {schema other : Value}

theorem StatesNullToo.get (alike : StatesNullToo schema other) (key : String)
    (known : key ∉ ["nullable", "x-nullable", "type"]) : other.get key = schema.get key := by
  rw [Value.get, Value.get, alike.rest key known]

theorem unionShape_orNull (key : String) (nullable : Bool) (members : Value) :
    unionShape shapeOf trail key true members =
      Shape.orNull <$> unionShape shapeOf trail key nullable members := by
  unfold unionShape
  rw [map_bind]
  congr 1
  funext members
  split
  next => simp
  next => simp [Shape.orNull]

theorem objectShape_orNull (alike : StatesNullToo schema other) (name : Option String)
    (nullable : Bool) (bases : List Value) :
    objectShape shapeOf trail other name true bases =
      Shape.orNull <$> objectShape shapeOf trail schema name nullable bases := by
  simp only [objectShape_eq, map_bind, map_pure, furtherShape, requiredNames, propertiesOf,
    alike.get "additionalProperties" (by decide), alike.rest "required" (by decide),
    alike.rest "properties" (by decide), Shape.orNull]

theorem conjunctionShape_orNull (alike : StatesNullToo schema other) (name : Option String)
    (nullable : Bool) (members : Value) :
    conjunctionShape shapeOf trail other name true members =
      Shape.orNull <$> conjunctionShape shapeOf trail schema name nullable members := by
  unfold conjunctionShape
  rw [map_bind, alike.get "properties" (by decide)]
  congr 1
  funext bases
  split
  next => simp
  next => exact objectShape_orNull alike name nullable bases

theorem simpleShape?_orNull (alike : StatesNullToo schema other) (nullable : Bool) :
    simpleShape? other true = (simpleShape? schema nullable).map Shape.orNull := by
  unfold simpleShape?
  rw [alike.type, alike.get "format" (by decide)]
  split
  next => split <;> rfl
  all_goals rfl

theorem typedShape_orNull (alike : StatesNullToo schema other) (name : Option String)
    (nullable : Bool) :
    typedShape shapeOf trail other name true =
      Shape.orNull <$> typedShape shapeOf trail schema name nullable := by
  unfold typedShape
  rw [simpleShape?_orNull alike nullable, alike.type, alike.get "items" (by decide),
    alike.rest "properties" (by decide), alike.rest "additionalProperties" (by decide)]
  cases simpleShape? schema nullable with
  | some shape => rfl
  | none =>
    dsimp only [Option.map_none]
    split
    next =>
      split
      next => rfl
      next => simp [Shape.orNull]
    next =>
      split
      next => exact objectShape_orNull alike name nullable []
      next =>
        split
        next => rfl
        next => simp [Shape.orNull]

theorem elements_scalar {s : Scalar} (noText : ∀ text, s ≠ .text text)
    (noBytes : ∀ bytes, s ≠ .bytes bytes) :
    (Value.scalar s).elements = .error (.misuse .wrongKind) := by
  cases s with
  | text text => exact absurd rfl (noText text)
  | bytes bytes => exact absurd rfl (noBytes bytes)
  | _ => rfl

theorem enumeratesNull_eq {values : Value} (several : ∀ s, values ≠ .scalar s) :
    enumeratesNull values = do return (← values.elements).any Value.isNull := by
  unfold enumeratesNull
  split
  next s => exact absurd rfl (several s)
  next => rfl

theorem enumerationShape_orNull {nullable : Bool}
    (listed : EnumeratesText schema → nullable = true)
    (stated : (schema.get "enum").truth = true) (name : Option String) :
    enumerationShape name true (schema.get "enum") =
      (enumerationShape name nullable (schema.get "enum")).map Shape.orNull := by
  rw [enumerationShape, enumerationShape]
  cases nullable with
  | true => cases (schema.get "enum").elements <;> rfl
  | false =>
    have noText : ∀ text, schema.get "enum" ≠ .text text :=
      fun text same => nomatch listed ⟨stated, .inl ⟨text, same⟩⟩
    have noBytes : ∀ bytes, schema.get "enum" ≠ .scalar (.bytes bytes) :=
      fun bytes same => nomatch listed ⟨stated, .inr ⟨bytes, same⟩⟩
    generalize schema.get "enum" = values at noText noBytes
    by_cases single : ∃ s, values = .scalar s
    · obtain ⟨s, rfl⟩ := single
      rw [elements_scalar (fun text same => noText text (congrArg Value.scalar same))
        fun bytes same => noBytes bytes (congrArg Value.scalar same)]
      rfl
    · rw [enumeratesNull_eq (not_exists.mp single)]
      cases values.elements <;> rfl

theorem inlineShape_orNull (alike : StatesNullToo schema other)
    (listed : EnumeratesText schema → allowsNull schema = true) (name : Option String) :
    inlineShape shapeOf trail other name =
      Shape.orNull <$> inlineShape shapeOf trail schema name := by
  unfold inlineShape
  rw [alike.null, alike.get "oneOf" (by decide), alike.get "anyOf" (by decide),
    alike.get "allOf" (by decide), alike.get "enum" (by decide)]
  dsimp only
  split
  next => exact unionShape_orNull "oneOf" (allowsNull schema) _
  next =>
    split
    next => exact unionShape_orNull "anyOf" (allowsNull schema) _
    next =>
      split
      next => exact conjunctionShape_orNull alike name (allowsNull schema) _
      next =>
        split
        next stated =>
          rw [enumerationShape_orNull listed stated name]
          cases enumerationShape name (allowsNull schema) (schema.get "enum") <;> rfl
        next => exact typedShape_orNull alike name (allowsNull schema)

end

/-- A conversion that ends does what plain recursion does from its depth on. -/
theorem run_plainShape_of_ends {document schema : Value} {progress : Progress}
    (ends : ((shapeOf document schema).run progress).1 ≠ .error endless) {depth : Nat}
    (deep : depthBound document schema ≤ depth) :
    (plainShape document depth schema).run progress = (shapeOf document schema).run progress := by
  have same := (shapeAt_continues_plainShape document (depthBound document schema) [] schema
    progress).resolve_left ends
  have deeper := plainShape_continues document deep schema progress
  rw [same] at deeper
  exact deeper.resolve_left ends

/-- Conversions that touch equal parts alike are equal. -/
def Agreement.equal : Agreement where
  holds := Eq
  pure _ := rfl
  fail _ := rfl
  warn _ := rfl
  bind same rest := by rw [same, funext rest]

section

variable {document schema other : Value} {shapeOf shapeOf' : Converter}
  {trail trail' inner : Trail}

/-- A schema that says null too has the shape with null, if the same becomes of its parts and
references. -/
theorem shapeStep_orNull (isMap : schema.isMap = true) (alike : StatesNullToo schema other)
    (listed : EnumeratesText schema → allowsNull schema = true)
    (into : trail.into schema = .ok inner)
    (parts : ∀ part, shapeOf inner part = shapeOf' trail' part)
    (references : ∀ reference, referenceShape document shapeOf inner reference =
      referenceShape document shapeOf' trail' reference) :
    shapeStep document shapeOf' trail' other =
      Shape.orNull <$> shapeStep document shapeOf trail schema := by
  have same : inlineShape shapeOf inner schema none = inlineShape shapeOf' trail' schema none :=
    Agreement.equal.comparison.inlineShape (fun part _ => parts part) none
  rw [shapeStep, shapeStep, isMap, alike.isMap, into, alike.into, alike.null,
    alike.get referenceKey (by decide)]
  simp only [Bool.not_true, Bool.false_eq_true, if_false, lift_ok_bind]
  split
  next => rw [inlineShape_orNull alike listed, same]
  next reference _ => simp [references]
  next => rfl
  next => rfl

end

def nullSchema : Value := mapping [("type", .text "null")]

/-- The ways to say that the values of a schema may be null, apart from what the schema says. -/
inductive Spelling (schema : Value) : Value → Prop where
  | nullable : Spelling schema (schema.withEntry "nullable" (.bool true))
  | extension : Spelling schema (schema.withEntry "x-nullable" (.bool true))
  | type {type : String} (stated : schema.get "type" = .text type) (other : type ≠ "null") :
    Spelling schema (schema.withEntry "type" (.list [.text type, .text "null"]))
  | anyOf : Spelling schema (mapping [("anyOf", .list [schema, nullSchema])])
  | oneOf : Spelling schema (mapping [("oneOf", .list [nullSchema, schema])])

section

variable {document schema spelling : Value}

theorem statesNullToo_withEntry (isMap : schema.isMap = true) {key : String} {part : Value}
    (known : key ∈ ["nullable", "x-nullable", "type"])
    (null : allowsNull (schema.withEntry key part) = true)
    (type : statedType (schema.withEntry key part) = statedType schema) :
    StatesNullToo schema (schema.withEntry key part) := by
  refine ⟨Value.isMap_withEntry isMap key, fun trail => ?_, null, type, fun other free => ?_⟩
  · obtain ⟨entries, same⟩ := Value.withEntry_eq_map isMap key part
    rw [same]
    rfl
  · rw [Value.get?_withEntry isMap, if_neg]
    rintro rfl
    exact free known

theorem get_withEntry (isMap : schema.isMap = true) (key : String) (part : Value) (other : String) :
    (schema.withEntry key part).get other = if other = key then part else schema.get other := by
  rw [Value.get, Value.get?_withEntry isMap, Value.get]
  split <;> rfl

/-- Whether a schema is the union of another one and null, and states nothing else. -/
structure UnitesWithNull (schema union : Value) : Prop where
  isMap : union.isMap = true
  whole : union.get referenceKey = .null
  into : ∀ trail : Trail, trail.into union = .ok trail
  members : ∃ key members, UnionOf union key members ∧
    (members = [schema, nullSchema] ∨ members = [nullSchema, schema])

theorem Spelling.cases (isMap : schema.isMap = true) (spelled : Spelling schema spelling) :
    StatesNullToo schema spelling ∨ UnitesWithNull schema spelling := by
  have nullable (key : String) (known : key ∈ ["nullable", "x-nullable"]) :
      StatesNullToo schema (schema.withEntry key (.bool true)) := by
    have other : "type" ≠ key := by
      rintro rfl
      simp at known
    refine statesNullToo_withEntry isMap (by simp at known ⊢; tauto) (allowsNull_iff.mpr ?_) ?_
    · have present := get_withEntry isMap key (.bool true) key
      rw [if_pos rfl] at present
      simp only [List.mem_cons, List.not_mem_nil, or_false] at known
      rcases known with rfl | rfl
      · exact .nullable (by rw [present]; rfl)
      · exact .extension (by rw [present]; rfl)
    · rw [statedType, statedType, get_withEntry isMap, if_neg other]
  cases spelled with
  | nullable => exact .inl (nullable _ (by simp))
  | extension => exact .inl (nullable _ (by simp))
  | @type type stated other =>
    left
    have present := get_withEntry isMap "type" (.list [.text type, .text "null"]) "type"
    rw [if_pos rfl] at present
    refine statesNullToo_withEntry isMap (by simp) (allowsNull_iff.mpr ?_) ?_
    · have listed : ((schema.withEntry "type" (.list [.text type, .text "null"])).get
          "type").opened = .list [.text type, .text "null"] := by rw [present]; rfl
      exact .type listed (by simp)
    · rw [statedType, statedType, present, stated]
      simp [Value.opened, Value.isText, other]
  | anyOf => exact .inr ⟨rfl, rfl, fun _ => rfl, "anyOf", _, .any rfl rfl rfl, .inl rfl⟩
  | oneOf => exact .inr ⟨rfl, rfl, fun _ => rfl, "oneOf", _, .one rfl rfl, .inr rfl⟩

theorem others_with_null (notNull : ¬IsNullSchema schema) :
    others [schema, nullSchema] = [schema] ∧ others [nullSchema, schema] = [schema] := by
  have other : allowsNullOnly schema = false :=
    Bool.eq_false_iff.mpr (mt allowsNullOnly_iff.mp notNull)
  have null : allowsNullOnly nullSchema = true := rfl
  simp [others, other, null]

/-- A union of a schema and null is converted by converting the schema. -/
theorem UnitesWithNull.shapeStep_eq (unites : UnitesWithNull schema spelling)
    (notNull : ¬IsNullSchema schema) (shapeOf : Converter) (trail : Trail) :
    shapeStep document shapeOf trail spelling = Shape.orNull <$> shapeOf trail schema := by
  obtain ⟨key, members, union, pair⟩ := unites.members
  have single : (members.filter fun member => !allowsNullOnly member) = [schema] := by
    rcases pair with rfl | rfl
    · exact (others_with_null notNull).1
    · exact (others_with_null notNull).2
  have two : members.length = 2 := by
    rcases pair with rfl | rfl <;> rfl
  rw [shapeStep, unites.isMap, unites.into, unites.whole]
  simp only [Bool.not_true, Bool.false_eq_true, if_false, lift_ok_bind]
  rw [union.inlineShape_eq, unionShape, union.elements_eq, lift_ok_bind]
  simp only [single, two]
  simp

theorem Spelling.isFinite (finite : schema.isFinite = true) (spelled : Spelling schema spelling) :
    spelling.isFinite = true := by
  cases spelled with
  | nullable => exact Value.isFinite_withEntry finite rfl _
  | extension => exact Value.isFinite_withEntry finite rfl _
  | type => exact Value.isFinite_withEntry finite rfl _
  | anyOf =>
    simp [mapping, Value.isFinite, Value.entriesFinite, Value.itemsFinite, nullSchema, finite]
  | oneOf =>
    simp [mapping, Value.isFinite, Value.entriesFinite, Value.itemsFinite, nullSchema, finite]

variable (isMap : schema.isMap = true) (notNull : ¬IsNullSchema schema)
  (listed : EnumeratesText schema → SaysNull schema)

include isMap notNull listed

/-- A spelling is converted like the schema itself, one step deeper at most. -/
theorem Spelling.shapeAt_eq (finite : schema.isFinite = true) (spelled : Spelling schema spelling)
    (document : Value) (depth : Nat) :
    ∃ deeper, depth ≤ deeper ∧ shapeAt document deeper [] spelling =
      Shape.orNull <$> shapeAt document (depth + 1) [] schema := by
  rcases spelled.cases isMap with alike | unites
  · have into : Trail.into [] schema = .ok [] := by
      cases schema with
      | knot => cases finite
      | _ => rfl
    refine ⟨depth + 1, by omega, ?_⟩
    exact shapeStep_orNull isMap alike (fun text => allowsNull_iff.mpr (listed text)) into
      (fun _ => rfl) fun _ => rfl
  · exact ⟨depth + 2, by omega, unites.shapeStep_eq notNull _ _⟩

/-- Plain recursion goes the same way, also into a schema that holds itself. -/
theorem Spelling.plainShape_eq (spelled : Spelling schema spelling) (document : Value)
    (depth : Nat) :
    ∃ deeper, depth ≤ deeper ∧ plainShape document deeper spelling =
      Shape.orNull <$> plainShape document (depth + 1) schema := by
  rcases spelled.cases isMap with alike | unites
  · obtain ⟨inner, into, references⟩ := plain_into document schema depth
    refine ⟨depth + 1, by omega, ?_⟩
    exact shapeStep_orNull isMap alike (fun text => allowsNull_iff.mpr (listed text)) into
      (fun _ => rfl) references
  · exact ⟨depth + 2, by omega, unites.shapeStep_eq notNull _ _⟩

/-- However null is added to what a schema allows, the result is that of the schema with null: the
same shape or the same failure, and the same progress. This goes for schemas that hold themselves
nowhere, and for all others whose conversion ends. -/
theorem spellings_agree (spelled : Spelling schema spelling) (progress : Progress)
    (ends : (document.isFinite = true ∧ schema.isFinite = true) ∨
      (((shapeOf document schema).run progress).1 ≠ .error endless ∧
        ((shapeOf document spelling).run progress).1 ≠ .error endless)) :
    (shapeOf document spelling).run progress =
      (((shapeOf document schema).run progress).1.map Shape.orNull,
        ((shapeOf document schema).run progress).2) := by
  have deep := Nat.le_add_right (depthBound document spelling) (depthBound document schema)
  have deep' := Nat.le_add_left (depthBound document schema) (depthBound document spelling)
  rcases ends with ⟨finite, whole⟩ | ⟨ends, ends'⟩
  · obtain ⟨deeper, le, same⟩ := spelled.shapeAt_eq isMap notNull listed whole document
      (depthBound document spelling + depthBound document schema)
    rw [← run_shapeAt_of_le finite (spelled.isFinite whole) (Nat.le_trans deep le), same,
      Conversion.run_map, run_shapeAt_of_le finite whole (by omega)]
  · obtain ⟨deeper, le, same⟩ := spelled.plainShape_eq isMap notNull listed document
      (depthBound document spelling + depthBound document schema)
    rw [← run_plainShape_of_ends ends' (Nat.le_trans deep le), same, Conversion.run_map,
      run_plainShape_of_ends ends (by omega)]

end

/-- A reference to a schema that holds references to itself, made nullable by a union and by a flag
beside it. -/
theorem spellings_agree_person :
    (referTo "Person").isMap = true ∧ ¬IsNullSchema (referTo "Person") ∧
      ¬EnumeratesText (referTo "Person") ∧
      (people.isFinite = true ∧ (referTo "Person").isFinite = true) ∧
      ∃ shape : Shape, shape.nullable = true ∧
        ∀ spelling, Spelling (referTo "Person") spelling →
          ((shapeOf people spelling).run {}).1 = .ok shape := by
  have isMap : (referTo "Person").isMap = true := rfl
  have notNull : ¬IsNullSchema (referTo "Person") := fun null => nomatch null.2
  have listed : ¬EnumeratesText (referTo "Person") := fun text => nomatch text.1
  have finite : people.isFinite = true ∧ (referTo "Person").isFinite = true := by decide
  obtain ⟨shape, converted⟩ : ∃ shape, ((shapeOf people (referTo "Person")).run {}).1 = .ok shape :=
    exists_eq_ok (by decide +kernel)
  refine ⟨isMap, notNull, listed, finite, shape.orNull, shape.nullable_orNull, fun _ spelled => ?_⟩
  rw [spellings_agree isMap notNull (fun text => absurd text listed) spelled {} (.inl finite),
    converted]
  rfl

/-- The characters of a text are values that may be null too by a flag, but not by a union: null is
looked for in the text only where the flag is missing, and cannot be. -/
theorem text_enumeration_told_apart :
    ∃ schema first second, schema.isMap = true ∧ ¬IsNullSchema schema ∧
      (schema.get "oneOf").truth = false ∧ (schema.get "anyOf").truth = false ∧
      Spelling schema first ∧ Spelling schema second ∧
      ((shapeOf people first).run {}).1 = .ok (.enumeration none [.text "a", .text "b"] true) ∧
      ((shapeOf people second).run {}).1 = .error (.misuse .wrongKind) := by
  refine ⟨mapping [("enum", .text "ab")], _, _, rfl, ?_, rfl, rfl, .nullable, .anyOf, ?_, ?_⟩
  · exact fun null => nomatch null.2
  · rfl
  · rfl

end OpenApi

end ApiBinding
