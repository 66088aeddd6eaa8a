import ApiBinding.Proofs.OpenApi.Plan

/-!
Conversions that succeed, as derivations: by which rule each schema was converted, and at which
progress. How deep a conversion goes and what it has passed no longer matters to them.
-/

namespace ApiBinding.OpenApi

/-- Where a conversion may be: at a schema, at a reference, or at a schema that is no reference,
with the name that it is converted under. -/
inductive Place where
  | schema (schema : Value)
  | reference (reference : String)
  | inline (schema : Value) (name : Option String)

/-- What is converted, and what comes of it: one place, or several schemas one after the other. -/
inductive Task where
  | one (place : Place) (shape : Shape)
  | all (calls : List (Value × Shape))

/-- Whether a reference by a name is converted, under that name, at the given place. -/
inductive Enters (document : Value) (reference name : String) : Place → Prop where
  | onward {target : Value} (found : referenced document reference = .ok target)
    (refers : (target.get? referenceKey).isSome = true) :
    Enters document reference name (.schema target)
  | target {target : Value} (found : referenced document reference = .ok target)
    (isMap : target.isMap = true) (whole : target.get? referenceKey = none) :
    Enters document reference name (.inline target (some name))

theorem Enters.unique {document : Value} {reference name : String} {place place' : Place}
    (enters : Enters document reference name place)
    (enters' : Enters document reference name place') : place' = place := by
  cases enters with
  | onward found refers =>
    cases enters' with
    | onward found' => cases found.symm.trans found'; rfl
    | target found' _ whole =>
      cases found.symm.trans found'
      rw [whole] at refers
      cases refers
  | target found _ whole =>
    cases enters' with
    | onward found' refers =>
      cases found.symm.trans found'
      rw [whole] at refers
      cases refers
    | target found' => cases found.symm.trans found'; rfl

/-- Whether a task is performed at a progress, and leaves another one. -/
inductive Performed (document : Value) : Progress → Task → Progress → Prop where
  | noObject {progress : Progress} {schema : Value} (noMap : schema.isMap = false) :
    Performed document progress (.one (.schema schema) (.unknown (some "non-object schema") false))
      progress
  | plain {progress final : Progress} {schema : Value} {shape : Shape}
    (isMap : schema.isMap = true) (whole : schema.get referenceKey = .null)
    (inside : Performed document progress (.one (.inline schema none) shape) final) :
    Performed document progress (.one (.schema schema) shape) final
  | refers {progress final : Progress} {schema : Value} {reference : String} {shape : Shape}
    (isMap : schema.isMap = true) (refers : schema.get referenceKey = .text reference)
    (inside : Performed document progress (.one (.reference reference) shape) final) :
    Performed document progress (.one (.schema schema) (nullIf (allowsNull schema) shape)) final
  | place {progress final : Progress} {reference : String} {target : Value} {shape : Shape}
    (unnamed : namedSchema? reference = none) (found : referenced document reference = .ok target)
    (inside : Performed document progress (.one (.schema target) shape) final) :
    Performed document progress (.one (.reference reference) shape) final
  | known {progress : Progress} {reference name : String} {shape : Shape}
    (named : namedSchema? reference = some name)
    (kept : Entries.get? (· == ·) name progress.named = some shape) :
    Performed document progress (.one (.reference reference) shape) progress
  | cut {progress : Progress} {reference name : String}
    (named : namedSchema? reference = some name)
    (fresh : Entries.get? (· == ·) name progress.named = none) (waits : name ∈ progress.pending) :
    Performed document progress (.one (.reference reference) (stub name)) progress
  | enter {progress after : Progress} {reference name : String} {place : Place} {shape : Shape}
    (named : namedSchema? reference = some name)
    (fresh : Entries.get? (· == ·) name progress.named = none) (idle : name ∉ progress.pending)
    (enters : Enters document reference name place)
    (inside : Performed document (progress.begin name) (.one place shape) after) :
    Performed document progress (.one (.reference reference) shape)
      (after.settle name (.ok shape))
  | fixed {progress : Progress} {schema : Value} {name : Option String} {shape : Shape}
    (planned : planOf schema name = .ok (.fixed shape)) :
    Performed document progress (.one (.inline schema name) shape) progress
  | instead {progress final : Progress} {schema inner : Value} {name : Option String}
    {nullable : Bool} {shape : Shape} (planned : planOf schema name = .ok (.instead nullable inner))
    (inside : Performed document progress (.one (.schema inner) shape) final) :
    Performed document progress (.one (.inline schema name) (nullIf nullable shape)) final
  | list {progress final : Progress} {schema items : Value} {name : Option String} {shape : Shape}
    (planned : planOf schema name = .ok (.list items))
    (inside : Performed document progress (.one (.schema items) shape) final) :
    Performed document progress
      (.one (.inline schema name) (.array shape (allowsNull schema) true)) final
  | object {progress final : Progress} {schema : Value} {bases : List Value}
    {name : Option String} (planned : planOf schema name = .ok (.object bases))
    (made : Ingredients schema bases)
    (inside : Performed document progress (.all (bases.zip made.shapes ++ made.parts)) final) :
    Performed document progress
      (.one (.inline schema name) (made.object name (allowsNull schema))) final
  | nil {progress : Progress} (warnings : List Warning) :
    Performed document progress (.all []) { progress with warnings }
  | cons {progress after final : Progress} {schema : Value} {shape : Shape}
    {rest : List (Value × Shape)} (warnings : List Warning)
    (first : Performed document { progress with warnings } (.one (.schema schema) shape) after)
    (further : Performed document after (.all rest) final) :
    Performed document progress (.all ((schema, shape) :: rest)) final

section

variable {document : Value} {shapeOf : Converter}
  (converts : ∀ {trail : Trail} {schema : Value} {progress final : Progress} {shape : Shape},
    (shapeOf trail schema).run progress = (.ok shape, final) →
    Performed document progress (.one (.schema schema) shape) final)
  {trail : Trail} {progress final : Progress} {shape : Shape}

include converts

theorem performed_of_calls {calls : List (Value × Shape)}
    (called : Calls shapeOf trail progress calls final) :
    Performed document progress (.all calls) final := by
  induction called with
  | nil warnings => exact .nil warnings
  | cons warnings ran _ ih => exact .cons warnings (converts ran) ih

theorem performed_of_inlineShape {schema : Value} {name : Option String}
    (ran : (inlineShape shapeOf trail schema name).run progress = (.ok shape, final)) :
    Performed document progress (.one (.inline schema name) shape) final := by
  rw [inlineShape_eq, Conversion.run_lift_bind] at ran
  cases planned : planOf schema name with
  | error failure =>
    rw [planned] at ran
    cases ran
  | ok plan =>
    rw [planned] at ran
    cases plan with
    | fixed fixed =>
      cases ran
      exact .fixed planned
    | instead nullable inner =>
      obtain ⟨inside, after, ran, last⟩ := Conversion.run_bind_eq_ok ran
      cases last
      exact .instead planned (converts ran)
    | list items =>
      obtain ⟨inside, after, ran, last⟩ := Conversion.run_bind_eq_ok ran
      cases last
      exact .list planned (converts ran)
    | object bases =>
      obtain ⟨made, rfl, called⟩ := calls_of_objectShape ran
      exact .object planned made (performed_of_calls converts called)

theorem performed_of_referenceShape {reference : String}
    (ran : (referenceShape document shapeOf trail reference).run progress = (.ok shape, final)) :
    Performed document progress (.one (.reference reference) shape) final := by
  cases named : namedSchema? reference with
  | none =>
    rw [referenceShape_of_none named] at ran
    obtain ⟨trail, _, passed, ran⟩ := Conversion.run_bind_eq_ok ran
    obtain ⟨target, _, found, ran⟩ := Conversion.run_bind_eq_ok ran
    rw [Conversion.run_lift] at passed found
    obtain ⟨_, rfl⟩ := Prod.mk.inj passed
    obtain ⟨leads, rfl⟩ := Prod.mk.inj found
    exact .place named leads (converts ran)
  | some name =>
    rw [run_referenceShape named] at ran
    split at ran
    next shape kept =>
      cases ran
      exact .known named kept
    next fresh =>
      split at ran
      next waits =>
        cases ran
        exact .cut named fresh (by simpa using waits)
      next idle =>
        have idle : name ∉ progress.pending := by simpa using idle
        rcases begun : (targetShape document shapeOf reference name).run (progress.begin name) with
          ⟨failure | inside, after⟩
        · rw [begun] at ran
          cases ran
        rw [begun] at ran
        cases ran
        obtain ⟨target, _, found, begun⟩ := Conversion.run_bind_eq_ok begun
        rw [Conversion.run_lift] at found
        obtain ⟨leads, rfl⟩ := Prod.mk.inj found
        split at begun
        next isMap =>
          split at begun
          next refers => exact .enter named fresh idle (.onward leads refers) (converts begun)
          next whole =>
            have whole := Option.not_isSome_iff_eq_none.mp whole
            exact .enter named fresh idle (.target leads isMap whole)
              (performed_of_inlineShape converts begun)
        next => cases begun

theorem performed_of_shapeStep {schema : Value}
    (ran : (shapeStep document shapeOf trail schema).run progress = (.ok shape, final)) :
    Performed document progress (.one (.schema schema) shape) final := by
  unfold shapeStep at ran
  split at ran
  next noMap =>
    cases ran
    exact .noObject (by simpa using noMap)
  next isMap =>
    have isMap : schema.isMap = true := by simpa using isMap
    obtain ⟨trail, _, passed, ran⟩ := Conversion.run_bind_eq_ok ran
    rw [Conversion.run_lift] at passed
    obtain ⟨_, rfl⟩ := Prod.mk.inj passed
    split at ran
    next whole => exact .plain isMap whole (performed_of_inlineShape converts ran)
    next reference refers =>
      obtain ⟨inside, after, ran, last⟩ := Conversion.run_bind_eq_ok ran
      cases last
      exact .refers isMap refers (performed_of_referenceShape converts ran)
    next => cases ran
    next => cases ran

end

/-- A conversion that succeeds has a derivation. -/
theorem performed_of_shapeAt {document : Value} {depth : Nat} {trail : Trail} {schema : Value}
    {progress final : Progress} {shape : Shape}
    (ran : (shapeAt document depth trail schema).run progress = (.ok shape, final)) :
    Performed document progress (.one (.schema schema) shape) final := by
  induction depth generalizing trail schema progress final shape with
  | zero => cases ran
  | succ depth ih => exact performed_of_shapeStep ih ran

end ApiBinding.OpenApi
