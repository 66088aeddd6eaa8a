import ApiBinding.Proofs.OpenApi.Recursion

/-!
Which schemas give shapes that may be null: all that say so by themselves, and of the unions with
null those with a single other member. Every other union is unknown and forgets that null is in it.
-/

namespace ApiBinding

@[simp] theorem Shape.nullable_orNull (shape : Shape) : shape.orNull.nullable = true := by
  cases shape <;> rfl

@[simp] theorem Value.isText_iff {v : Value} {s : String} : v.isText s = true ↔ v = .text s := by
  unfold isText
  split
  next t => simp
  next other => exact iff_of_false Bool.false_ne_true (other s)

namespace OpenApi

open Conversion (run_bind_eq_ok)

theorem nullable_nullIf (nullable : Bool) (shape : Shape) :
    (nullIf nullable shape).nullable = (nullable || shape.nullable) := by
  cases nullable <;> simp [nullIf]

/-- Whether a schema states by itself that its values may be null. -/
inductive SaysNull (schema : Value) : Prop where
  | nullable (h : (schema.get "nullable").truth = true)
  | extension (h : (schema.get "x-nullable").truth = true)
  | type {types : List Value} (h : (schema.get "type").opened = .list types)
    (member : .text "null" ∈ types)

/-- Whether a schema is that of null alone. -/
def IsNullSchema (schema : Value) : Prop :=
  schema.isMap = true ∧ schema.get "type" = .text "null"

/-- The members of the union by which a schema is converted, and the key under which they stand:
`anyOf` counts only where `oneOf` is missing or empty. -/
inductive UnionOf (schema : Value) : String → List Value → Prop where
  | one {members : List Value} (stated : (schema.get "oneOf").truth = true)
    (h : (schema.get "oneOf").elements = .ok members) : UnionOf schema "oneOf" members
  | any {members : List Value} (noOneOf : (schema.get "oneOf").truth = false)
    (stated : (schema.get "anyOf").truth = true)
    (h : (schema.get "anyOf").elements = .ok members) : UnionOf schema "anyOf" members

/-- The members of a union apart from null. -/
def others (members : List Value) : List Value :=
  members.filter fun member => !allowsNullOnly member

/-- Whether a schema is converted by a union of which null is a member. -/
def HasNullMember (schema : Value) : Prop :=
  ∃ key members, UnionOf schema key members ∧ ∃ member ∈ members, IsNullSchema member

/-- Whether a schema is converted by a union that has one member apart from null. -/
def HasOneOther (schema : Value) : Prop :=
  ∃ key members, UnionOf schema key members ∧ (others members).length = 1

theorem allowsNull_iff {schema : Value} : allowsNull schema = true ↔ SaysNull schema := by
  constructor
  · intro h
    simp only [allowsNull, Bool.or_eq_true] at h
    rcases h with (nullable | extension) | typed
    · exact .nullable nullable
    · exact .extension extension
    · split at typed
      next types opened =>
        obtain ⟨type, member, null⟩ := List.any_eq_true.mp typed
        obtain rfl := Value.isText_iff.mp null
        exact .type opened member
      next => cases typed
  · rintro (nullable | extension | ⟨opened, member⟩)
    · simp [allowsNull, nullable]
    · simp [allowsNull, extension]
    · have null := List.any_eq_true.mpr ⟨_, member, Value.isText_iff.mpr rfl⟩
      simp [allowsNull, opened, null]

theorem allowsNullOnly_iff {schema : Value} :
    allowsNullOnly schema = true ↔ IsNullSchema schema := by
  rw [allowsNullOnly, Bool.and_eq_true, Value.isText_iff]
  exact Iff.rfl

theorem length_others_lt {members : List Value} {member : Value} (h : member ∈ members)
    (null : IsNullSchema member) : (others members).length < members.length := by
  refine List.length_filter_lt_length_iff_exists.mpr ⟨member, h, ?_⟩
  simp [allowsNullOnly_iff.mpr null]

/-- A schema is converted by one union at most. -/
theorem UnionOf.unique {schema : Value} {key key' : String} {members members' : List Value}
    (first : UnionOf schema key members) (second : UnionOf schema key' members') :
    key = key' ∧ members = members' := by
  cases first with
  | one stated h =>
    cases second with
    | one _ h' => exact ⟨rfl, Except.ok.inj (h.symm.trans h')⟩
    | any noOneOf => simp [stated] at noOneOf
  | any noOneOf _ h =>
    cases second with
    | one stated => simp [noOneOf] at stated
    | any _ _ h' => exact ⟨rfl, Except.ok.inj (h.symm.trans h')⟩

theorem hasOneOther_iff {schema : Value} {key : String} {members : List Value}
    (union : UnionOf schema key members) :
    HasOneOther schema ↔ (others members).length = 1 := by
  constructor
  · rintro ⟨key', members', union', one⟩
    obtain ⟨-, rfl⟩ := union.unique union'
    exact one
  · exact fun one => ⟨key, members, union, one⟩

section exits

variable {shapeOf : Converter} {trail : Trail} {schema : Value} {name : Option String}
  {nullable : Bool} {progress final : Progress} {shape : Shape}

theorem nullable_of_simpleShape? (h : simpleShape? schema nullable = some shape) :
    shape.nullable = nullable := by
  unfold simpleShape? at h
  split at h
  case h_1 =>
    split at h
    next =>
      cases h
      rfl
    next =>
      cases h
      rfl
  case h_6 => cases h
  all_goals
    cases h
    rfl

theorem nullable_of_objectShape {bases : List Value}
    (h : (objectShape shapeOf trail schema name nullable bases).run progress = (.ok shape, final)) :
    shape.nullable = nullable := by
  obtain ⟨fields, additional, rfl⟩ := objectShape_result h
  rfl

theorem nullable_of_typedShape
    (h : (typedShape shapeOf trail schema name nullable).run progress = (.ok shape, final)) :
    shape.nullable = nullable := by
  unfold typedShape at h
  split at h
  next simple found =>
    cases h
    exact nullable_of_simpleShape? found
  next =>
    dsimp only at h
    split at h
    next =>
      split at h
      next =>
        cases h
        rfl
      next =>
        obtain ⟨element, _, _, h⟩ := run_bind_eq_ok h
        cases h
        rfl
    next =>
      split at h
      next => exact nullable_of_objectShape h
      next =>
        split at h
        next =>
          cases h
          rfl
        next =>
          obtain ⟨_, _, _, h⟩ := run_bind_eq_ok h
          cases h
          rfl

theorem nullable_of_enumerationShape {values : Value}
    (h : enumerationShape name true values = .ok shape) : shape.nullable = true := by
  obtain ⟨elements, _, h⟩ := bind_eq_ok.mp h
  cases h
  rfl

theorem nullable_of_conjunctionShape {members : Value}
    (h : (conjunctionShape shapeOf trail schema name true members).run progress =
      (.ok shape, final)) : shape.nullable = true := by
  obtain ⟨bases, _, _, h⟩ := run_bind_eq_ok h
  split at h
  next =>
    obtain ⟨only, _, _, h⟩ := run_bind_eq_ok h
    obtain ⟨inner, _, _, h⟩ := run_bind_eq_ok h
    cases h
    exact nullable_nullIf true inner
  next => exact nullable_of_objectShape h

/-- What a union gives: the shape of its only member apart from null, which may be null if the
schema or another member says so, or nothing that is known. -/
theorem unionShape_result {key : String} {values : Value}
    (h : (unionShape shapeOf trail key nullable values).run progress = (.ok shape, final)) :
    ∃ members, values.elements = .ok members ∧
      (((others members).length = 1 ∧
          ∃ inner, shape = nullIf (nullable || decide (1 < members.length)) inner) ∨
        ((others members).length ≠ 1 ∧ shape = .unknown (some (key ++ " union")) nullable)) := by
  obtain ⟨members, _, found, h⟩ := run_bind_eq_ok h
  rw [Conversion.run_lift] at found
  refine ⟨members, congrArg Prod.fst found, ?_⟩
  split at h
  next only single =>
    obtain ⟨inner, _, _, h⟩ := run_bind_eq_ok h
    cases h
    exact .inl ⟨congrArg List.length single, inner, rfl⟩
  next several =>
    cases h
    refine .inr ⟨fun one => ?_, rfl⟩
    obtain ⟨only, single⟩ := List.length_eq_one_iff.mp one
    exact several only single

theorem nullable_of_unionShape {key : String} {values : Value}
    (h : (unionShape shapeOf trail key true values).run progress = (.ok shape, final)) :
    shape.nullable = true := by
  obtain ⟨members, _, ⟨_, inner, rfl⟩ | ⟨_, rfl⟩⟩ := unionShape_result h
  · simp [nullable_nullIf]
  · rfl

/-- Whatever a schema is converted by, its shape may be null if the schema says so by itself. -/
theorem SaysNull.nullable_of_inlineShape (null : SaysNull schema)
    (h : (inlineShape shapeOf trail schema name).run progress = (.ok shape, final)) :
    shape.nullable = true := by
  unfold inlineShape at h
  rw [allowsNull_iff.mpr null] at h
  dsimp only at h
  split at h
  next => exact nullable_of_unionShape h
  next =>
    split at h
    next => exact nullable_of_unionShape h
    next =>
      split at h
      next => exact nullable_of_conjunctionShape h
      next =>
        split at h
        next =>
          rw [Conversion.run_lift] at h
          exact nullable_of_enumerationShape (congrArg Prod.fst h)
        next => exact nullable_of_typedShape h

/-- A schema with a union is converted by it, whatever else it states. -/
theorem UnionOf.inlineShape_eq {key : String} {members : List Value}
    (union : UnionOf schema key members) :
    inlineShape shapeOf trail schema name =
      unionShape shapeOf trail key (allowsNull schema) (schema.get key) := by
  cases union with
  | one stated => simp [inlineShape, stated]
  | any noOneOf stated => simp [inlineShape, noOneOf, stated]

theorem UnionOf.elements_eq {key : String} {members : List Value}
    (union : UnionOf schema key members) : (schema.get key).elements = .ok members := by
  cases union with
  | one _ h => exact h
  | any _ _ h => exact h

end exits

/-- How null counts in the shape of a schema that speaks of it: the one shape in which it is
forgotten is that of a union that is unknown. -/
structure NullCounts (schema : Value) (shape : Shape) : Prop where
  nullable_iff : shape.nullable = true ↔ SaysNull schema ∨ HasOneOther schema
  forgotten : shape.nullable = false →
    ∃ key members, UnionOf schema key members ∧ shape = .unknown (some (key ++ " union")) false

theorem NullCounts.of_present {schema : Value} {shape : Shape} (present : shape.nullable = true)
    (due : SaysNull schema ∨ HasOneOther schema) : NullCounts schema shape where
  nullable_iff := iff_of_true present due
  forgotten absent := absurd present (by simp [absent])

theorem nullCounts_of_inlineShape {shapeOf : Converter} {trail : Trail} {schema : Value}
    {name : Option String} {progress final : Progress} {shape : Shape}
    (null : SaysNull schema ∨ HasNullMember schema)
    (h : (inlineShape shapeOf trail schema name).run progress = (.ok shape, final)) :
    NullCounts schema shape := by
  by_cases stated : SaysNull schema
  · exact .of_present (stated.nullable_of_inlineShape h) (.inl stated)
  obtain ⟨key, members, union, member, inside, isNull⟩ := null.resolve_left stated
  have silent : allowsNull schema = false := Bool.eq_false_iff.mpr (mt allowsNull_iff.mp stated)
  rw [union.inlineShape_eq, silent] at h
  obtain ⟨members', found, outcome⟩ := unionShape_result h
  obtain rfl := Except.ok.inj (union.elements_eq.symm.trans found)
  have fewer := length_others_lt inside isNull
  rcases outcome with ⟨one, inner, rfl⟩ | ⟨several, rfl⟩
  · rw [one] at fewer
    exact .of_present (by simp [nullable_nullIf, fewer]) (.inr ((hasOneOther_iff union).mpr one))
  · refine ⟨iff_of_false Bool.false_ne_true ?_, fun _ => ⟨key, members, union, rfl⟩⟩
    exact not_or.mpr ⟨stated, fun one => several ((hasOneOther_iff union).mp one)⟩

theorem isMap_of_null {schema : Value} (null : SaysNull schema ∨ HasNullMember schema) :
    schema.isMap = true := by
  by_contra other
  have bare (key : String) : schema.get key = .null := by
    unfold Value.isMap at other
    unfold Value.get Value.get?
    split
    next opened => simp [opened] at other
    next => rfl
  rcases null with (h | h | ⟨h, _⟩) | ⟨_, _, h | ⟨_, h⟩, _⟩
  all_goals
    rw [bare] at h
    cases h

/-- A schema that is no reference and speaks of null has a shape that may be null, at any depth of
the conversion, unless it leaves this to a union with none or several members apart from null. -/
theorem shapeAt_null_counts {document : Value} {depth : Nat} {trail : Trail} {schema : Value}
    {progress final : Progress} {shape : Shape} (whole : schema.get referenceKey = .null)
    (null : SaysNull schema ∨ HasNullMember schema)
    (converted : (shapeAt document depth trail schema).run progress = (.ok shape, final)) :
    NullCounts schema shape := by
  cases depth with
  | zero => cases converted
  | succ depth =>
    unfold shapeAt shapeStep at converted
    rw [isMap_of_null null, if_neg (by simp)] at converted
    obtain ⟨inner, _, _, converted⟩ := run_bind_eq_ok converted
    rw [whole] at converted
    exact nullCounts_of_inlineShape null converted

/-- The union of schemas that state a type and nothing else. -/
def unionOfTypes (types : List String) : Value :=
  mapping [("oneOf", .list (types.map fun type => mapping [("type", .text type)]))]

theorem unionOf_types {type : String} {types : List String} :
    UnionOf (unionOfTypes (type :: types)) "oneOf"
      ((type :: types).map fun type => mapping [("type", .text type)]) :=
  .one rfl rfl

theorem optional_text_null_counts :
    ∃ shape final, (shapeOf people (unionOfTypes ["string", "null"])).run {} = (.ok shape, final) ∧
      shape.nullable = true := by
  obtain ⟨shape, converted⟩ :
      ∃ shape, ((shapeOf people (unionOfTypes ["string", "null"])).run {}).1 = .ok shape :=
    exists_eq_ok (by decide +kernel)
  have null : HasNullMember (unionOfTypes ["string", "null"]) :=
    ⟨_, _, unionOf_types, mapping [("type", .text "null")], by simp, by decide, rfl⟩
  have counts := shapeAt_null_counts rfl (.inr null) (Prod.ext converted rfl)
  exact ⟨shape, _, Prod.ext converted rfl,
    counts.nullable_iff.mpr (.inr ⟨_, _, unionOf_types, by decide⟩)⟩

/-- Two members apart from null: the union is unknown, and null is not among what it allows. -/
theorem union_forgets_null :
    (unionOfTypes ["string", "integer", "null"]).get referenceKey = .null ∧
      HasNullMember (unionOfTypes ["string", "integer", "null"]) ∧
      ((shapeOf people (unionOfTypes ["string", "integer", "null"])).run {}).1 =
        .ok (.unknown (some "oneOf union") false) :=
  ⟨rfl, ⟨_, _, unionOf_types, mapping [("type", .text "null")], by simp, by decide, rfl⟩, rfl⟩

end OpenApi

end ApiBinding
