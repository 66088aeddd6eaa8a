import ApiBinding.Proofs.OpenApi.Agreement
import ApiBinding.Proofs.OpenApi.Endless

/-!
Conversions that stay where they fail. They give what conversions give, but the names that were
being converted at a failure are pending still; these are the names of which the conversion failed.
-/

namespace ApiBinding.OpenApi

/-- The shape of a reference. A name is pending from where its conversion begins until it succeeds.
-/
def openReference (document : Value) (shapeOf : Converter) (trail : Trail) (reference : String) :
    Conversion Shape :=
  match namedSchema? reference with
  | none => do
    shapeOf (← trail.passing (.reference reference)) (← referenced document reference)
  | some name => do
    let progress ← get
    match Entries.get? (· == ·) name progress.named with
    | some shape => return shape
    | none =>
      if progress.pending.contains name then return .object (some name) [] none false
      else
        modify (Progress.begin name)
        let shape ← targetShape document shapeOf reference name
        modify (Progress.settle name (.ok shape))
        return shape

def openAt (document : Value) : Nat → Converter
  | 0, _, _ => throw (.misuse .endless)
  | depth + 1, trail, schema =>
    stepWith (openReference document (openAt document depth)) (openAt document depth) trail schema

def openShape (document schema : Value) : Conversion Shape :=
  openAt document (depthBound document schema) [] schema

variable {document : Value} {shapeOf shapeOf' : Converter} {trail : Trail}
  {reference name : String}

theorem openReference_of_none (unnamed : namedSchema? reference = none) :
    openReference document shapeOf trail reference = (do
      shapeOf (← trail.passing (.reference reference)) (← referenced document reference)) := by
  rw [openReference, unnamed]

theorem run_openReference_of_not_answers (named : namedSchema? reference = some name)
    {progress : Progress} (unanswered : ¬progress.answers name) :
    (openReference document shapeOf trail reference).run progress =
      match (targetShape document shapeOf reference name).run (progress.begin name) with
      | (.ok shape, after) => (.ok shape, after.settle name (.ok shape))
      | (.error failure, after) => (.error failure, after) := by
  obtain ⟨unknown, fresh⟩ := not_or.mp unanswered
  have kept : Entries.get? (· == ·) name progress.named = none :=
    Option.not_isSome_iff_eq_none.mp unknown
  have waits : ¬progress.pending.contains name = true :=
    fun waits => fresh (List.contains_iff_mem.mp waits)
  simp only [openReference, named]
  rw [Conversion.run_bind, Conversion.run_get]
  simp only [kept, if_neg waits]
  rw [Conversion.run_bind, Conversion.run_modify]
  dsimp only
  rw [Conversion.run_bind]
  rcases (targetShape document shapeOf reference name).run (progress.begin name) with
    ⟨_ | shape, after⟩
  · rfl
  · rfl

theorem contains_of_answers {progress : Progress} (answers : progress.answers name)
    (unknown : Entries.get? (· == ·) name progress.named = none) :
    progress.pending.contains name = true := by
  refine List.contains_iff_mem.mpr (answers.resolve_left fun known => ?_)
  rw [Progress.knows, unknown] at known
  cases known

/-- A reference to a name that is known or pending is the same as ever. -/
theorem run_openReference_of_answers (shapeOf shapeOf' : Converter)
    (named : namedSchema? reference = some name) {progress : Progress}
    (answers : progress.answers name) :
    (openReference document shapeOf trail reference).run progress =
      (referenceShape document shapeOf' trail reference).run progress := by
  rw [run_referenceShape named]
  simp only [openReference, named]
  rw [Conversion.run_bind, Conversion.run_get]
  cases kept : Entries.get? (· == ·) name progress.named with
  | some shape => simp only [kept, Conversion.run_pure]
  | none => simp only [kept, if_pos (contains_of_answers answers kept), Conversion.run_pure]

/-- What a conversion that stays where it fails leaves behind. No name is known while it is pending,
and after a success the same names are pending as before. -/
structure Halts {α : Type} (progress : Progress) (result : Except Failure α) (left : Progress) :
    Prop where
  settled : ∀ a, result = .ok a → left.pending = progress.pending
  waits : progress.pending ⊆ left.pending
  knows : ∀ name, progress.knows name = true → left.knows name = true
  unknown : ∀ name ∈ left.pending, left.knows name = true →
    name ∈ progress.pending ∧ progress.knows name = true

/-- Whether two conversions give the same and leave the same behind, but for the names that the
second one was converting when it failed. -/
structure Exposes {α : Type} (closed opened : Conversion α) : Prop where
  same : ∀ progress, closed.run progress =
    ((opened.run progress).1, { (opened.run progress).2 with pending := progress.pending })
  halts : ∀ progress, Halts progress (opened.run progress).1 (opened.run progress).2

section

variable {α β : Type} {progress : Progress}

theorem Halts.still (result : Except Failure α) {left : Progress}
    (pending : left.pending = progress.pending) (named : left.named = progress.named) :
    Halts progress result left := by
  have knows (name : String) : left.knows name = progress.knows name := by
    rw [Progress.knows, Progress.knows, named]
  refine ⟨fun _ _ => pending, ?_, fun name known => ?_, fun name member known => ⟨?_, ?_⟩⟩
  · rw [pending]
    exact List.Subset.refl _
  · rwa [knows]
  · rwa [← pending]
  · rwa [← knows]

theorem Halts.trans {a : α} {middle left : Progress} {result : Except Failure β}
    (first : Halts progress (.ok a : Except Failure α) middle) (second : Halts middle result left) :
    Halts progress result left := by
  have pending := first.settled a rfl
  refine ⟨fun b ok => (second.settled b ok).trans pending, ?_, fun name known => ?_, ?_⟩
  · rw [← pending]
    exact second.waits
  · exact second.knows name (first.knows name known)
  · intro name member known
    obtain ⟨member, known⟩ := second.unknown name member known
    exact first.unknown name member known

theorem Halts.bind {first : Conversion α} {next : α → Conversion β}
    (here : Halts progress (first.run progress).1 (first.run progress).2)
    (rest : ∀ a middle, Halts middle ((next a).run middle).1 ((next a).run middle).2) :
    Halts progress ((first >>= next).run progress).1 ((first >>= next).run progress).2 := by
  rcases ran : first.run progress with ⟨failure | a, middle⟩
  · rw [ran] at here
    rw [Conversion.run_bind_error ran]
    exact ⟨nofun, here.waits, here.knows, here.unknown⟩
  · rw [ran] at here
    rw [Conversion.run_bind_ok ran]
    exact here.trans (rest a middle)

theorem Exposes.pure (a : α) : Exposes (pure a) (pure a) :=
  ⟨fun _ => rfl, fun _ => .still _ rfl rfl⟩

theorem Exposes.bind {first first' : Conversion α} {next next' : α → Conversion β}
    (here : Exposes first first') (rest : ∀ a, Exposes (next a) (next' a)) :
    Exposes (first >>= next) (first' >>= next') := by
  constructor
  · intro progress
    have same := here.same progress
    have halts := here.halts progress
    rcases ran : first'.run progress with ⟨failure | a, middle⟩
    · rw [ran] at same
      rw [Conversion.run_bind_error same, Conversion.run_bind_error ran]
    · rw [ran] at same halts
      have pending : middle.pending = progress.pending := halts.settled a rfl
      have same : first.run progress = (.ok a, middle) := by
        rw [same, ← pending]
      rw [Conversion.run_bind_ok same, Conversion.run_bind_ok ran, (rest a).same middle, pending]
  · exact fun progress => (here.halts progress).bind fun a => (rest a).halts

def Exposes.agreement : Agreement where
  holds := Exposes
  pure := .pure
  fail _ := ⟨fun _ => rfl, fun _ => .still _ rfl rfl⟩
  warn _ := ⟨fun _ => rfl, fun _ => .still _ rfl rfl⟩
  bind := .bind

end

/-- A name that is neither known nor pending stays pending unless its target gives a shape. -/
theorem Halts.named {progress left : Progress} (unanswered : ¬progress.answers name) :
    (∀ failure, Halts (progress.begin name) (.error failure : Except Failure Shape) left →
        Halts progress (.error failure : Except Failure Shape) left) ∧
      ∀ shape, Halts (progress.begin name) (.ok shape : Except Failure Shape) left →
        Halts progress (.ok shape : Except Failure Shape) (left.settle name (.ok shape)) := by
  obtain ⟨unknown, fresh⟩ := not_or.mp unanswered
  have before {other : String} (member : other ∈ (progress.begin name).pending)
      (known : (progress.begin name).knows other = true) :
      other ∈ progress.pending ∧ progress.knows other = true := by
    rcases List.mem_cons.mp member with rfl | member
    · exact absurd known unknown
    · exact ⟨member, known⟩
  constructor
  · intro failure halts
    refine ⟨nofun, fun other member => halts.waits (List.mem_cons_of_mem name member), halts.knows,
      fun other member known => ?_⟩
    obtain ⟨member, known⟩ := halts.unknown other member known
    exact before member known
  · intro shape halts
    have pending : (left.settle name (.ok shape)).pending = progress.pending := by
      rw [pending_settle, halts.settled shape rfl]
      exact List.erase_cons_head ..
    refine ⟨fun _ _ => pending, fun other member => pending ▸ member, fun other known => ?_,
      fun other member known => ?_⟩
    · rw [knows_settle_ok, halts.knows other known, Bool.or_true]
    · rw [pending] at member
      have different : name ≠ other := by
        rintro rfl
        exact fresh member
      rw [knows_settle_ok, decide_eq_false different, Bool.false_or] at known
      have still : other ∈ left.pending := halts.waits (List.mem_cons_of_mem name member)
      obtain ⟨begun, known⟩ := halts.unknown other still known
      exact before begun known

theorem Exposes.named (named : namedSchema? reference = some name)
    (target : Exposes (targetShape document shapeOf reference name)
      (targetShape document shapeOf' reference name)) :
    Exposes (referenceShape document shapeOf trail reference)
      (openReference document shapeOf' trail reference) := by
  constructor
  · intro progress
    by_cases answers : progress.answers name
    · obtain ⟨shape, ran⟩ := run_named_of_answers named answers
      rw [run_openReference_of_answers shapeOf' shapeOf named answers, ran]
    · have same := target.same (progress.begin name)
      have erased : (progress.begin name).pending.erase name = progress.pending :=
        List.erase_cons_head ..
      rw [run_named_of_not_answers named answers, run_openReference_of_not_answers named answers,
        same]
      rcases (targetShape document shapeOf' reference name).run (progress.begin name) with
        ⟨failure | shape, left⟩
      · simp only [Progress.settle, erased]
      · simp only [Progress.settle, erased]
  · intro progress
    by_cases answers : progress.answers name
    · obtain ⟨shape, ran⟩ := run_named_of_answers named answers
      rw [run_openReference_of_answers shapeOf' shapeOf named answers, ran]
      exact .still _ rfl rfl
    · have halts := target.halts (progress.begin name)
      rw [run_openReference_of_not_answers named answers]
      rcases ran : (targetShape document shapeOf' reference name).run (progress.begin name) with
        ⟨failure | shape, left⟩
      · rw [ran] at halts
        exact (Halts.named answers).1 failure halts
      · rw [ran] at halts
        exact (Halts.named answers).2 shape halts

theorem exposes_openAt (document : Value) (depth : Nat) :
    ∀ trail schema, Exposes (shapeAt document depth trail schema)
      (openAt document depth trail schema) := by
  induction depth with
  | zero => exact fun _ _ => Exposes.agreement.fail _
  | succ depth ih =>
    intro trail schema
    refine Exposes.agreement.stepWith ih (fun trail reference => ?_) trail schema
    cases named : namedSchema? reference with
    | none =>
      rw [referenceShape_of_none named, openReference_of_none named]
      exact Exposes.agreement.unnamedShape ih trail reference
    | some name => exact Exposes.named named (Exposes.agreement.targetShape ih reference name)

end ApiBinding.OpenApi
