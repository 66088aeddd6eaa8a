import ApiBinding.Proofs.OpenApi.Keeping

/-!
The conversion of a schema by plain recursion, which knows of no landmarks and may run into any
depth: where the conversion that minds its landmarks comes to an end, both do the same.
-/

namespace ApiBinding.OpenApi

/-- The shape of a schema by plain recursion, down to a given depth. -/
def plainShape (document : Value) : Nat → Value → Conversion Shape
  | 0, _ => throw endless
  | depth + 1, schema => shapeStep document (fun _ => plainShape document depth) [] schema

/-- Whether the second conversion does what the first one does, unless the first one gives up. -/
def Continues {α : Type} (first second : Conversion α) : Prop :=
  ∀ progress, (first.run progress).1 = .error endless ∨
    second.run progress = first.run progress

namespace Continues

def comparison : Comparison where
  alike := Eq
  holds := Continues
  refl _ := rfl
  map₂ := by
    rintro _ _ _ f _ _ _ _ rfl rfl
    rfl
  pure := by
    rintro _ _ _ rfl progress
    exact .inr rfl
  fail _ _ := .inr rfl
  bind {_ _ first first' next next'} here rest progress := by
    rw [Conversion.run_bind, Conversion.run_bind]
    rcases here progress with stopped | same
    · rcases ran : first.run progress with ⟨failure | a, after⟩
      · rw [ran] at stopped
        obtain rfl : failure = endless := Except.error.inj stopped
        exact .inl rfl
      · rw [ran] at stopped
        cases stopped
    · rw [same]
      rcases first.run progress with ⟨failure | a, after⟩
      · exact .inr rfl
      · exact rest a a rfl after
  lift {_ _ result next next'} _ rest progress := by
    rw [Conversion.run_lift_bind, Conversion.run_lift_bind]
    cases result with
    | error failure => exact .inr rfl
    | ok a => exact rest a rfl progress
  absorb := by
    rintro name _ _ _ _ rfl rfl progress
    exact .inr rfl

theorem refl {α : Type} (conversion : Conversion α) : Continues conversion conversion :=
  fun _ => .inr rfl

theorem trans {α : Type} {first second third : Conversion α} (h : Continues first second)
    (h' : Continues second third) : Continues first third := by
  intro progress
  rcases h progress with stopped | same
  · exact .inl stopped
  · rw [← same]
    exact h' progress

end Continues

theorem passing_cases {trail trail' : Trail} (fewer : trail' ⊆ trail) (landmark : Landmark) :
    trail.passing landmark = .error endless ∨
      ∃ longer longer', trail.passing landmark = .ok longer ∧
        trail'.passing landmark = .ok longer' ∧ longer' ⊆ longer := by
  unfold Trail.passing
  by_cases met : landmark ∈ trail
  · left
    simp [met]
  · right
    have met' : landmark ∉ trail' := fun h => met (fewer h)
    exact ⟨landmark :: trail, landmark :: trail', by simp [met], by simp [met'],
      List.cons_subset_cons _ fewer⟩

theorem into_cases {trail trail' : Trail} (fewer : trail' ⊆ trail) (schema : Value) :
    trail.into schema = .error endless ∨
      ∃ longer longer', trail.into schema = .ok longer ∧
        trail'.into schema = .ok longer' ∧ longer' ⊆ longer := by
  cases schema with
  | knot name body => exact passing_cases fewer (.knot name)
  | _ => exact .inr ⟨trail, trail', rfl, rfl, fewer⟩

section

variable {document : Value} {shapeOf shapeOf' : Converter}
  (continues : ∀ trail trail' schema, trail' ⊆ trail →
    Continues (shapeOf trail schema) (shapeOf' trail' schema))

include continues

theorem inlineShape_continues {trail trail' : Trail} (fewer : trail' ⊆ trail) (schema : Value)
    (name : Option String) : Continues (inlineShape shapeOf trail schema name)
      (inlineShape shapeOf' trail' schema name) :=
  Continues.comparison.inlineShape (fun part _ => continues trail trail' part fewer) name

theorem targetShape_continues (reference name : String) :
    Continues (targetShape document shapeOf reference name)
      (targetShape document shapeOf' reference name) := by
  refine Continues.comparison.lift referenced_ordinary fun target _ => ?_
  split
  next =>
    split
    next => exact continues [] [] target (List.Subset.refl [])
    next => exact inlineShape_continues continues (List.Subset.refl []) target (some name)
  next => exact Continues.refl _

theorem referenceShape_continues {trail trail' : Trail} (fewer : trail' ⊆ trail)
    (reference : String) : Continues (referenceShape document shapeOf trail reference)
      (referenceShape document shapeOf' trail' reference) := by
  intro progress
  cases named : namedSchema? reference with
  | none =>
    rw [referenceShape_of_none named, referenceShape_of_none named, Conversion.run_lift_bind,
      Conversion.run_lift_bind]
    rcases passing_cases fewer (.reference reference) with met | ⟨longer, longer', passed, passed',
      fewer⟩
    · rw [met]
      exact .inl rfl
    · rw [passed, passed']
      dsimp only
      rw [Conversion.run_lift_bind, Conversion.run_lift_bind]
      cases referenced document reference with
      | error failure => exact .inr rfl
      | ok target => exact continues longer longer' target fewer progress
  | some name =>
    rw [run_referenceShape named, run_referenceShape named]
    cases Entries.get? (· == ·) name progress.named with
    | some shape => exact .inr rfl
    | none =>
      dsimp only
      split
      next => exact .inr rfl
      next =>
        have continues : Continues (targetShape document shapeOf reference name)
            (targetShape document shapeOf' reference name) :=
          targetShape_continues continues reference name
        rcases continues (progress.begin name) with stopped | same
        · exact .inl stopped
        · exact .inr (by rw [same])

theorem shapeStep_continues {trail trail' : Trail} (fewer : trail' ⊆ trail) (schema : Value) :
    Continues (shapeStep document shapeOf trail schema)
      (shapeStep document shapeOf' trail' schema) := by
  unfold shapeStep
  split
  next => exact Continues.refl _
  next =>
    intro progress
    rw [Conversion.run_lift_bind, Conversion.run_lift_bind]
    rcases into_cases fewer schema with met | ⟨longer, longer', passed, passed', fewer⟩
    · rw [met]
      exact .inl rfl
    · rw [passed, passed']
      dsimp only
      split
      next => exact inlineShape_continues continues fewer schema none progress
      next reference _ =>
        have continues : Continues (referenceShape document shapeOf longer reference)
            (referenceShape document shapeOf' longer' reference) :=
          referenceShape_continues continues fewer reference
        exact Continues.comparison.bind continues
          (fun shape shape' same => Continues.comparison.pure (congrArg _ same)) progress
      next => exact .inr rfl
      next => exact .inr rfl

end

theorem shapeAt_continues (document : Value) (depth : Nat) :
    ∀ trail trail' schema, trail' ⊆ trail →
      Continues (shapeAt document depth trail schema)
        (shapeAt document (depth + 1) trail' schema) := by
  induction depth with
  | zero => exact fun _ _ _ _ _ => .inl rfl
  | succ depth ih => exact fun _ _ schema fewer => shapeStep_continues ih fewer schema

theorem shapeAt_continues_plainShape (document : Value) (depth : Nat) :
    ∀ trail schema,
      Continues (shapeAt document depth trail schema) (plainShape document depth schema) := by
  induction depth with
  | zero => exact fun _ _ _ => .inl rfl
  | succ depth ih =>
    intro trail schema
    have continues : ∀ trail trail' : Trail, ∀ schema, trail' ⊆ trail →
        Continues (shapeAt document depth trail schema) (plainShape document depth schema) :=
      fun trail _ schema _ => ih trail schema
    exact shapeStep_continues continues (List.nil_subset trail) schema

theorem plainShape_continues (document : Value) {depth deeper : Nat} (h : depth ≤ deeper) :
    ∀ schema, Continues (plainShape document depth schema)
      (plainShape document deeper schema) := by
  induction depth generalizing deeper with
  | zero => exact fun _ _ => .inl rfl
  | succ depth ih =>
    obtain ⟨deeper, rfl⟩ : ∃ n, deeper = n + 1 := ⟨deeper - 1, by omega⟩
    intro schema
    have continues : ∀ trail trail' : Trail, ∀ schema, trail' ⊆ trail →
        Continues (plainShape document depth schema) (plainShape document deeper schema) :=
      fun _ _ schema _ => ih (by omega) schema
    exact shapeStep_continues continues (List.Subset.refl []) schema

/-- By plain recursion, the landmark that a schema is makes no difference to its references. -/
theorem plain_into (document schema : Value) (depth : Nat) :
    ∃ inner, Trail.into [] schema = .ok inner ∧ ∀ reference,
      referenceShape document (fun _ => plainShape document depth) inner reference =
        referenceShape document (fun _ => plainShape document depth) [] reference := by
  have passes (inner : Trail) (none : ∀ reference, .reference reference ∉ inner)
      (reference : String) :
      referenceShape document (fun _ => plainShape document depth) inner reference =
        referenceShape document (fun _ => plainShape document depth) [] reference := by
    unfold referenceShape
    split
    next => simp [Trail.passing, none reference, lift_ok_bind]
    next => rfl
  cases schema with
  | knot name body => exact ⟨[.knot name], rfl, passes _ (by simp)⟩
  | _ => exact ⟨[], rfl, fun _ => rfl⟩

end ApiBinding.OpenApi
