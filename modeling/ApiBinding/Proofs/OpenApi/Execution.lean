import ApiBinding.Proofs.OpenApi.Derivation
import ApiBinding.Proofs.OpenApi.Endless

/-!
Derivations are carried out: what has a derivation is converted by plain recursion, and, in a finite
document, by the conversion that minds its landmarks.
-/

namespace ApiBinding.OpenApi

/-- Whether a conversion gives a result and leaves a progress, whatever the warnings are. -/
def Gives {α : Type} (conversion : Conversion α) (progress : Progress) (a : α) (final : Progress) :
    Prop :=
  ∀ warnings, ∃ warnings',
    conversion.run { progress with warnings } = (.ok a, { final with warnings := warnings' })

namespace Gives

variable {α β : Type} {progress middle final : Progress}

theorem pure (a : α) (progress : Progress) : Gives (pure a) progress a progress :=
  fun warnings => ⟨warnings, rfl⟩

theorem aside {conversion : Conversion α} {a : α} {warnings : List Warning}
    (gives : Gives conversion { progress with warnings } a final) :
    Gives conversion progress a final := gives

theorem bind {first : Conversion α} {next : α → Conversion β} {a : α} {b : β}
    (here : Gives first progress a middle) (rest : Gives (next a) middle b final) :
    Gives (first >>= next) progress b final := by
  intro warnings
  obtain ⟨between, ran⟩ := here warnings
  obtain ⟨after, ran'⟩ := rest between
  exact ⟨after, by rw [Conversion.run_bind_ok ran, ran']⟩

theorem lift {result : Except Failure α} {next : α → Conversion β} {a : α} {b : β}
    (found : result = .ok a) (rest : Gives (next a) progress b final) :
    Gives ((liftM result : Conversion α) >>= next) progress b final := by
  rw [found, lift_ok_bind]
  exact rest

end Gives

/-- Whether schemas are converted one after the other to the given shapes. -/
inductive Serves (convert : Value → Conversion Shape) :
    Progress → List (Value × Shape) → Progress → Prop where
  | nil {progress : Progress} (warnings : List Warning) :
    Serves convert progress [] { progress with warnings }
  | cons {progress after final : Progress} {schema : Value} {shape : Shape}
    {rest : List (Value × Shape)} (first : Gives (convert schema) progress shape after)
    (further : Serves convert after rest final) :
    Serves convert progress ((schema, shape) :: rest) final

section

variable {convert : Value → Conversion Shape} {progress final : Progress}

theorem Serves.split {first second : List (Value × Shape)}
    (serves : Serves convert progress (first ++ second) final) :
    ∃ middle, Serves convert progress first middle ∧ Serves convert middle second final := by
  induction first generalizing progress with
  | nil => exact ⟨progress, .nil progress.warnings, serves⟩
  | cons call rest ih =>
    cases serves with
    | cons first further =>
      obtain ⟨middle, serves, serves'⟩ := ih further
      exact ⟨middle, .cons first serves, serves'⟩

theorem gives_absorb (name : Option String) (merged : List (Scalar × Field) × Option Shape)
    (shape : Shape) (progress : Progress) :
    Gives (absorb name merged shape) progress (joined merged [shape]) progress := by
  intro warnings
  obtain ⟨warnings', ran⟩ := run_absorb name merged shape { progress with warnings }
  exact ⟨warnings', ran⟩

variable {trail : Trail}

theorem gives_mergeBases {name : Option String} {bases : List Value} {shapes : List Shape}
    {fields : List (Scalar × Field)} {additional : Option Shape}
    (same : shapes.length = bases.length)
    (serves : Serves convert progress (bases.zip shapes) final) :
    Gives (mergeBases (fun _ => convert) trail name fields additional bases) progress
      (joined (fields, additional) shapes) final := by
  induction bases generalizing shapes fields additional progress with
  | nil =>
    cases serves
    obtain rfl := List.length_eq_zero_iff.mp same
    exact .pure (fields, additional) _
  | cons base bases ih =>
    match shapes with
    | shape :: shapes =>
      cases serves with
      | cons first further =>
        rw [mergeBases_cons]
        exact first.bind ((gives_absorb name (fields, additional) shape _).bind
          (ih (Nat.succ.inj same) further))

theorem gives_mergeProperties {required : List Scalar} {entries : List (Scalar × Value)}
    {types : List Shape} {fields : List (Scalar × Field)} (same : types.length = entries.length)
    (serves : Serves convert progress ((entries.map Prod.snd).zip types) final) :
    Gives (mergeProperties (fun _ => convert) trail required fields entries) progress
      (addFields fields (ownFields required entries types)) final := by
  induction entries generalizing types fields progress with
  | nil =>
    cases serves
    exact .pure fields _
  | cons entry entries ih =>
    match types with
    | type :: types =>
      cases serves with
      | cons first further => exact first.bind (ih (Nat.succ.inj same) further)

theorem gives_furtherShape {schema : Value} {inherited further : Option Shape}
    (same : further.isSome = (furtherSchema? schema).isSome)
    (serves : Serves convert progress ((furtherSchema? schema).toList.zip further.toList) final) :
    Gives (furtherShape (fun _ => convert) trail schema inherited) progress
      (furtherOf schema inherited further) final := by
  unfold furtherSchema? at same serves
  unfold furtherShape furtherOf
  generalize schema.get "additionalProperties" = stated at same serves ⊢
  split
  next =>
    obtain rfl : further = none := Option.not_isSome_iff_eq_none.mp (by simp [same])
    cases serves
    exact .pure _ _
  next unbounded =>
    split at same
    next => exact absurd rfl unbounded
    next =>
      split at serves
      next => exact absurd rfl unbounded
      next =>
        by_cases isMap : stated.isMap = true
        · rw [if_pos isMap] at same serves
          obtain ⟨shape, rfl⟩ := Option.isSome_iff_exists.mp same
          rw [if_pos isMap, if_pos isMap]
          cases serves with
          | cons first last =>
            cases last
            exact first.bind (.pure _ _)
        · rw [if_neg isMap] at same serves
          obtain rfl : further = none := Option.not_isSome_iff_eq_none.mp (by simp [same])
          rw [if_neg isMap, if_neg isMap]
          cases serves
          exact .pure _ _

theorem gives_objectShape {schema : Value} {name : Option String} {nullable : Bool}
    {bases : List Value} (made : Ingredients schema bases)
    (serves : Serves convert progress (bases.zip made.shapes ++ made.parts) final) :
    Gives (objectShape (fun _ => convert) trail schema name nullable bases) progress
      (made.object name nullable) final := by
  obtain ⟨_, first, rest⟩ := serves.split
  obtain ⟨_, second, third⟩ := rest.split
  rw [objectShape_eq]
  refine (gives_mergeBases made.shapes_length first).bind ?_
  refine .lift made.required_eq (.lift made.properties_eq ?_)
  refine (gives_mergeProperties made.types_length second).bind ?_
  exact (gives_furtherShape made.further_isSome third).bind (.pure _ _)

end

/-- What a task comes to by plain recursion down to a given depth. -/
def CarriedOut (document : Value) (depth : Nat) (progress final : Progress) : Task → Prop
  | .one (.schema schema) shape => Gives (plainShape document depth schema) progress shape final
  | .one (.reference reference) shape =>
    Gives (referenceShape document (fun _ => plainShape document depth) [] reference) progress shape
      final
  | .one (.inline schema name) shape => ∀ trail,
    Gives (inlineShape (fun _ => plainShape document depth) trail schema name) progress shape final
  | .all calls => Serves (plainShape document depth) progress calls final

section

variable {document : Value} {progress final : Progress} {depth : Nat} {shape : Shape}

theorem gives_inlineShape {schema : Value} {name : Option String} {plan : Plan}
    (planned : planOf schema name = .ok plan) (trail : Trail)
    (gives : Gives (plan.shape (fun _ => plainShape document depth) trail schema name) progress
      shape final) :
    Gives (inlineShape (fun _ => plainShape document depth) trail schema name) progress shape
      final := by
  rw [inlineShape_eq]
  exact .lift planned gives

theorem gives_targetShape {reference name : String} {place : Place}
    (enters : Enters document reference name place)
    (inside : CarriedOut document depth progress final (.one place shape)) :
    Gives (targetShape document (fun _ => plainShape document depth) reference name) progress shape
      final := by
  cases enters with
  | onward found refers =>
    obtain ⟨_, held⟩ := Option.isSome_iff_exists.mp refers
    refine .lift found ?_
    rw [if_pos (isMap_of_get? held), if_pos refers]
    exact inside
  | target found isMap whole =>
    refine .lift found ?_
    rw [if_pos isMap, whole]
    exact inside []

/-- Above the depth of a derivation, plain recursion follows it. -/
theorem Performed.carriedOut {task : Task} (performed : Performed document progress task final) :
    ∃ depth, ∀ deeper, depth ≤ deeper → CarriedOut document deeper progress final task := by
  induction performed with
  | noObject noMap =>
    refine ⟨1, fun deeper deep => ?_⟩
    obtain ⟨depth, rfl⟩ := Nat.exists_eq_add_of_le' deep
    rw [CarriedOut, plainShape, shapeStep, noMap]
    exact .pure _ _
  | @plain _ _ schema _ isMap whole _ ih =>
    obtain ⟨depth, inside⟩ := ih
    refine ⟨depth + 1, fun deeper deep => ?_⟩
    obtain ⟨deeper, rfl⟩ : ∃ n, deeper = n + 1 := ⟨deeper - 1, by omega⟩
    obtain ⟨inner, into, -⟩ := plain_into document schema deeper
    rw [CarriedOut, plainShape, shapeStep, isMap, into, whole]
    exact inside deeper (by omega) inner
  | @refers _ _ schema _ _ isMap refers _ ih =>
    obtain ⟨depth, inside⟩ := ih
    refine ⟨depth + 1, fun deeper deep => ?_⟩
    obtain ⟨deeper, rfl⟩ : ∃ n, deeper = n + 1 := ⟨deeper - 1, by omega⟩
    obtain ⟨inner, into, references⟩ := plain_into document schema deeper
    rw [CarriedOut, plainShape, shapeStep, isMap, into, refers]
    refine .lift rfl ?_
    dsimp only
    rw [references]
    exact (inside deeper (by omega)).bind (.pure _ _)
  | place unnamed found _ ih =>
    obtain ⟨depth, inside⟩ := ih
    refine ⟨depth, fun deeper deep => ?_⟩
    rw [CarriedOut, referenceShape_of_none unnamed]
    exact .lift rfl (.lift found (inside deeper deep))
  | known named kept =>
    refine ⟨0, fun deeper _ warnings => ⟨warnings, ?_⟩⟩
    rw [run_referenceShape named]
    dsimp only
    rw [kept]
  | cut named fresh waits =>
    refine ⟨0, fun deeper _ warnings => ⟨warnings, ?_⟩⟩
    rw [run_referenceShape named]
    dsimp only
    rw [fresh]
    exact if_pos (List.contains_iff_mem.mpr waits)
  | @enter progress _ _ name _ _ named fresh idle enters _ ih =>
    obtain ⟨depth, inside⟩ := ih
    refine ⟨depth, fun deeper deep warnings => ?_⟩
    obtain ⟨warnings', ran⟩ := gives_targetShape enters (inside deeper deep) warnings
    have unanswered : ¬({ progress with warnings } : Progress).answers name :=
      not_answers fresh idle
    refine ⟨warnings', ?_⟩
    rw [run_named_of_not_answers named unanswered]
    exact congrArg (fun target : Except Failure Shape × Progress =>
      (target.1, target.2.settle name target.1)) ran
  | fixed planned =>
    exact ⟨0, fun _ _ trail => gives_inlineShape planned trail (.pure _ _)⟩
  | instead planned _ ih =>
    obtain ⟨depth, inside⟩ := ih
    exact ⟨depth, fun deeper deep trail =>
      gives_inlineShape planned trail ((inside deeper deep).bind (.pure _ _))⟩
  | list planned _ ih =>
    obtain ⟨depth, inside⟩ := ih
    exact ⟨depth, fun deeper deep trail =>
      gives_inlineShape planned trail ((inside deeper deep).bind (.pure _ _))⟩
  | object planned made _ ih =>
    obtain ⟨depth, inside⟩ := ih
    exact ⟨depth, fun deeper deep trail =>
      gives_inlineShape planned trail (gives_objectShape made (inside deeper deep))⟩
  | nil warnings => exact ⟨0, fun _ _ => .nil warnings⟩
  | cons warnings _ _ ih ih' =>
    obtain ⟨depth, first⟩ := ih
    obtain ⟨depth', further⟩ := ih'
    refine ⟨max depth depth', fun deeper deep => .cons ?_ (further deeper (by omega))⟩
    exact (first deeper (by omega)).aside

/-- In a finite document the conversion of a schema follows each derivation. -/
theorem Performed.run {schema : Value} (finite : document.isFinite = true)
    (finiteSchema : schema.isFinite = true)
    (performed : Performed document progress (.one (.schema schema) shape) final) :
    ∃ warnings, (shapeOf document schema).run progress = (.ok shape, { final with warnings }) := by
  obtain ⟨depth, carriedOut⟩ := performed.carriedOut
  have deep : CarriedOut document (max depth (depthBound document schema)) progress final
      (.one (.schema schema) shape) := carriedOut _ (Nat.le_max_left ..)
  obtain ⟨warnings, ran⟩ := deep progress.warnings
  rcases shapeOf_ends_or_circles finite finiteSchema progress with ⟨_, same⟩ | ⟨_, never⟩
  · exact ⟨warnings, (same _ (Nat.le_max_right ..)).symm.trans ran⟩
  · exact nomatch (congrArg Prod.fst ran).symm.trans (never _)

end

end ApiBinding.OpenApi
