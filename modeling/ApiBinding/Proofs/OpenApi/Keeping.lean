import ApiBinding.Proofs.OpenApi.Comparison

/-!
What conversions leave as it was: a relation between the progress before and after holds of every
conversion once it holds of the single steps.
-/

namespace ApiBinding.OpenApi

namespace Conversion

variable {α β : Type}

theorem run_bind_eq_ok {first : Conversion α} {next : α → Conversion β}
    {progress final : Progress} {b : β} (h : (first >>= next).run progress = (.ok b, final)) :
    ∃ a after, first.run progress = (.ok a, after) ∧ (next a).run after = (.ok b, final) := by
  rw [run_bind] at h
  rcases ran : first.run progress with ⟨_ | a, after⟩
  · rw [ran] at h
    cases h
  · rw [ran] at h
    exact ⟨a, after, rfl, h⟩

theorem run_lift_bind (result : Except Failure α) (next : α → Conversion β) (progress : Progress) :
    ((liftM result : Conversion α) >>= next).run progress =
      match result with
      | .ok a => (next a).run progress
      | .error failure => (.error failure, progress) := by
  rw [run_bind, run_lift]
  cases result <;> rfl

theorem run_lift_bind_eq_ok {result : Except Failure α} {next : α → Conversion β}
    {progress final : Progress} {b : β}
    (h : ((liftM result : Conversion α) >>= next).run progress = (.ok b, final)) :
    ∃ a, result = .ok a ∧ (next a).run progress = (.ok b, final) := by
  rw [run_lift_bind] at h
  cases result with
  | error failure => cases h
  | ok a => exact ⟨a, rfl, h⟩

end Conversion

/-- The progress after the target of a name was converted: the name is no longer pending, and its
shape is kept if there is one. -/
def Progress.settle (name : String) (result : Except Failure Shape) (progress : Progress) :
    Progress :=
  match result with
  | .ok shape =>
    { progress with
      pending := progress.pending.erase name
      named := Entries.put (· == ·) name shape progress.named }
  | .error _ => { progress with pending := progress.pending.erase name }

def Progress.begin (name : String) (progress : Progress) : Progress :=
  { progress with pending := name :: progress.pending }

theorem referenceShape_of_none {document : Value} {shapeOf : Converter} {trail : Trail}
    {reference : String} (unnamed : namedSchema? reference = none) :
    referenceShape document shapeOf trail reference = (do
      shapeOf (← trail.passing (.reference reference)) (← referenced document reference)) := by
  rw [referenceShape, unnamed]

/-- A reference by name gives the shape that is kept, or the name alone while it is pending, or else
the shape of its target, which is kept. -/
theorem run_referenceShape {document : Value} {shapeOf : Converter} {trail : Trail}
    {reference name : String} (named : namedSchema? reference = some name) (progress : Progress) :
    (referenceShape document shapeOf trail reference).run progress =
      match Entries.get? (· == ·) name progress.named with
      | some shape => (.ok shape, progress)
      | none =>
        if progress.pending.contains name then (.ok (.object (some name) [] none false), progress)
        else
          let target := (targetShape document shapeOf reference name).run (progress.begin name)
          (target.1, target.2.settle name target.1) := by
  simp only [referenceShape, named]
  rw [Conversion.run_bind, Conversion.run_get]
  cases kept : Entries.get? (· == ·) name progress.named with
  | some shape => simp only [kept, Conversion.run_pure]
  | none =>
    by_cases pending : progress.pending.contains name = true
    · simp only [kept, if_pos pending, Conversion.run_pure]
    · simp only [kept, if_neg pending]
      rw [Conversion.run_bind]
      have ran : (whilePending name (targetShape document shapeOf reference name)).run progress =
          (((targetShape document shapeOf reference name).run (progress.begin name)).1,
            { ((targetShape document shapeOf reference name).run (progress.begin name)).2 with
              pending := ((targetShape document shapeOf reference name).run
                (progress.begin name)).2.pending.erase name }) := rfl
      rw [ran]
      rcases (targetShape document shapeOf reference name).run (progress.begin name) with
        ⟨_ | shape, after⟩
      · rfl
      · rfl

/-- A relation between the progress before and after that holds of the steps of a conversion. -/
structure Steady (document : Value) (relation : Progress → Progress → Prop) : Prop where
  refl : ∀ progress, relation progress progress
  trans : ∀ {first second third}, relation first second → relation second third →
    relation first third
  ignored : ∀ progress name,
    relation progress { progress with warnings := progress.warnings ++ [.ignoredMember name] }
  settled : ∀ {shapeOf : Converter} {reference name : String} {progress : Progress},
    namedSchema? reference = some name → Entries.get? (· == ·) name progress.named = none →
    let target := (targetShape document shapeOf reference name).run (progress.begin name)
    relation (progress.begin name) target.2 → relation progress (target.2.settle name target.1)

namespace Steady

variable {document : Value} {relation : Progress → Progress → Prop}

/-- Two conversions compare if the first one keeps the relation. -/
def comparison (steady : Steady document relation) : Comparison where
  alike _ _ := True
  holds first _ := ∀ progress, relation progress (first.run progress).2
  refl _ := trivial
  map₂ := by intros; trivial
  pure _ progress := steady.refl progress
  fail _ progress := steady.refl progress
  bind {_ _ first _ next _} kept keeps progress := by
    rw [Conversion.run_bind]
    have here := kept progress
    rcases ran : first.run progress with ⟨_ | a, after⟩
    · rwa [ran] at here
    · rw [ran] at here
      exact steady.trans here (keeps a a trivial after)
  lift {_ _ result next _} _ keeps progress := by
    rw [Conversion.run_lift_bind]
    cases result with
    | error failure => exact steady.refl progress
    | ok a => exact keeps a rfl progress
  absorb name merged _ shape _ _ _ progress := by
    cases shape with
    | object => exact steady.refl progress
    | primitive => exact steady.ignored progress name
    | array => exact steady.ignored progress name
    | enumeration => exact steady.ignored progress name
    | generic => exact steady.ignored progress name
    | unknown => exact steady.ignored progress name

theorem inlineShape (steady : Steady document relation) {shapeOf : Converter} {trail : Trail}
    (keeps : ∀ schema progress, relation progress ((shapeOf trail schema).run progress).2)
    (schema : Value) (name : Option String) (progress : Progress) :
    relation progress ((inlineShape shapeOf trail schema name).run progress).2 := by
  have parts : ∀ part, Part schema part →
      steady.comparison.holds (shapeOf trail part) (shapeOf trail part) :=
    fun part _ progress => keeps part progress
  exact steady.comparison.inlineShape parts name progress

theorem targetShape (steady : Steady document relation) {shapeOf : Converter}
    (keeps : ∀ trail schema progress, relation progress ((shapeOf trail schema).run progress).2)
    (reference name : String) (progress : Progress) :
    relation progress ((targetShape document shapeOf reference name).run progress).2 := by
  rw [OpenApi.targetShape, Conversion.run_lift_bind]
  cases referenced document reference with
  | error failure => exact steady.refl progress
  | ok target =>
    dsimp only
    split
    next =>
      split
      next => exact keeps [] target progress
      next =>
        exact steady.inlineShape (keeps []) target (some name) progress
    next => exact steady.refl progress

theorem referenceShape (steady : Steady document relation) {shapeOf : Converter}
    (keeps : ∀ trail schema progress, relation progress ((shapeOf trail schema).run progress).2)
    (trail : Trail) (reference : String) (progress : Progress) :
    relation progress ((referenceShape document shapeOf trail reference).run progress).2 := by
  cases named : namedSchema? reference with
  | none =>
    rw [referenceShape_of_none named, Conversion.run_lift_bind]
    cases trail.passing (.reference reference) with
    | error failure => exact steady.refl progress
    | ok trail =>
      dsimp only
      rw [Conversion.run_lift_bind]
      cases referenced document reference with
      | error failure => exact steady.refl progress
      | ok target => exact keeps trail target progress
  | some name =>
    rw [run_referenceShape named]
    split
    next => exact steady.refl progress
    next fresh =>
      split
      next => exact steady.refl progress
      next => exact steady.settled named fresh (steady.targetShape keeps reference name _)

theorem shapeStep (steady : Steady document relation) {shapeOf : Converter}
    (keeps : ∀ trail schema progress, relation progress ((shapeOf trail schema).run progress).2)
    (trail : Trail) (schema : Value) (progress : Progress) :
    relation progress ((shapeStep document shapeOf trail schema).run progress).2 := by
  unfold OpenApi.shapeStep
  split
  next => exact steady.refl progress
  next =>
    rw [Conversion.run_lift_bind]
    cases trail.into schema with
    | error failure => exact steady.refl progress
    | ok trail =>
      dsimp only
      split
      next =>
        exact steady.inlineShape (keeps trail) schema none progress
      next reference _ =>
        have kept := steady.referenceShape keeps trail reference progress
        rw [Conversion.run_bind]
        rcases ran : (OpenApi.referenceShape document shapeOf trail reference).run progress with
          ⟨_ | shape, after⟩
        · rwa [ran] at kept
        · rwa [ran] at kept
      next => exact steady.refl progress
      next => exact steady.refl progress

/-- Every conversion keeps a relation that its steps keep. -/
theorem shapeAt (steady : Steady document relation) (depth : Nat) :
    ∀ trail schema progress,
      relation progress ((shapeAt document depth trail schema).run progress).2 := by
  induction depth with
  | zero => exact fun _ _ progress => steady.refl progress
  | succ depth ih => exact steady.shapeStep ih

end Steady

end ApiBinding.OpenApi
