import ApiBinding.Proofs.OpenApi.Agreement
import ApiBinding.Proofs.OpenApi.Derivation
import ApiBinding.Proofs.OpenApi.Endless

/-!
What is known of names after any conversions: whatever a derivation of a reference by a name gives,
as long as the same holds of all names that are known to it.
-/

namespace ApiBinding.OpenApi

/-- The progress in which a conversion may find a document while certain names are pending. -/
inductive Passed (document : Value) (free : String → Prop) : Progress → Prop
  | start : Passed document free {}
  | converted {progress : Progress} (passed : Passed document free progress) (depth : Nat)
      (trail : Trail) (schema : Value) :
      Passed document free ((shapeAt document depth trail schema).run progress).2
  | aside {progress : Progress} (passed : Passed document free progress) {pending : List String}
      (idle : ∀ name ∈ pending, free name) (warnings : List Warning) :
      Passed document free { progress with pending, warnings }

theorem Reached.passed {document : Value} {progress : Progress}
    (reached : Reached document progress) : Passed document (fun _ => True) progress := by
  induction reached with
  | start => exact .start
  | converted _ depth trail schema ih => exact .converted ih depth trail schema
  | aside _ pending warnings ih => exact .aside ih (fun _ _ => trivial) warnings

/-- Whether only certain names are pending, and all names that are known have shapes with a
property. -/
structure Progress.Holds (free : String → Prop) (motive : String → Shape → Prop)
    (progress : Progress) : Prop where
  idle : ∀ name ∈ progress.pending, free name
  known : ∀ name shape, Entries.get? (· == ·) name progress.named = some shape → motive name shape

/-- Whether a progress comes after another one with the same names pending. -/
structure Progress.Onward (free : String → Prop) (motive : String → Shape → Prop)
    (before after : Progress) : Prop where
  pending : after.pending = before.pending
  holds : after.Holds free motive

variable {document : Value} {free : String → Prop} {motive : String → Shape → Prop}
  {progress after final : Progress} {reference name : String} {shape : Shape} {trail : Trail}

theorem Progress.Holds.onward (holds : progress.Holds free motive) :
    progress.Onward free motive progress := ⟨rfl, holds⟩

theorem Progress.Onward.trans (first : progress.Onward free motive after)
    (second : after.Onward free motive final) : progress.Onward free motive final :=
  ⟨second.pending.trans first.pending, second.holds⟩

/-- With the same names pending, what was said of them before is true after. -/
theorem Progress.Onward.tighten {narrow : String → Prop}
    (onward : progress.Onward free motive after) (holds : progress.Holds narrow motive) :
    progress.Onward narrow motive after :=
  ⟨onward.pending, fun name waits => holds.idle name (onward.pending ▸ waits), onward.holds.known⟩

theorem Progress.Holds.begin (holds : progress.Holds free motive) (mayWait : free name) :
    (progress.begin name).Holds free motive where
  idle := List.forall_mem_cons.mpr ⟨mayWait, holds.idle⟩
  known := holds.known

/-- A name is settled with the shape that it is given, which has to have the property. -/
theorem Progress.Onward.settle {result : Except Failure Shape}
    (onward : (progress.begin name).Onward free motive after)
    (given : ∀ shape, result = .ok shape → motive name shape) :
    progress.Onward free motive (after.settle name result) := by
  have same : (after.settle name result).pending = progress.pending := by
    rw [pending_settle, onward.pending]
    exact List.erase_cons_head ..
  refine ⟨same, ?_, ?_⟩
  · intro other waits
    exact onward.holds.idle other (onward.pending ▸ List.mem_cons_of_mem name (same ▸ waits))
  · intro other kept found
    cases result with
    | error failure => exact onward.holds.known other kept found
    | ok shape =>
      change Entries.get? (· == ·) other (Entries.put (· == ·) name shape after.named) = _ at found
      rw [Entries.get?_put] at found
      split at found
      next same =>
        obtain rfl := Option.some.inj found
        exact same ▸ given shape rfl
      next => exact onward.holds.known other kept found

/-- Whether references of names keep a property of all that is known. A name that may be pending has
to be given a shape with the property; any other name has to see to what it enters as well. -/
structure Upholds (document : Value) (free : String → Prop) (motive : String → Shape → Prop) :
    Prop where
  given : ∀ {reference name : String} {progress final : Progress} {shape : Shape},
    namedSchema? reference = some name → free name → progress.Holds free motive →
    Performed document progress (.one (.reference reference) shape) final → motive name shape
  closed : ∀ {reference name : String} {progress : Progress},
    namedSchema? reference = some name → ¬free name → progress.Holds free motive →
    ∀ depth trail, progress.Onward free motive
      ((referenceShape document (shapeAt document depth) trail reference).run progress).2

/-- Two conversions compare if the first one keeps the property. -/
def knowing (free : String → Prop) (motive : String → Shape → Prop) : Agreement where
  holds first _ := ∀ progress : Progress, progress.Holds free motive →
    progress.Onward free motive (first.run progress).2
  pure _ _ holds := holds.onward
  fail _ _ holds := holds.onward
  warn _ _ holds := ⟨rfl, holds.idle, holds.known⟩
  bind {_ _ first _ next _} here rest progress holds := by
    have after := here progress holds
    rw [Conversion.run_bind]
    rcases ran : first.run progress with ⟨failure | a, middle⟩
    · rwa [ran] at after
    · rw [ran] at after
      exact after.trans (rest a middle after.holds)

theorem knowing_referenceShape (upholds : Upholds document free motive) {depth : Nat}
    (keeps : ∀ trail schema, (knowing free motive).holds (shapeAt document depth trail schema)
      (shapeAt document depth trail schema)) (trail : Trail) (reference : String) :
    (knowing free motive).holds (referenceShape document (shapeAt document depth) trail reference)
      (referenceShape document (shapeAt document depth) trail reference) := by
  intro progress holds
  cases named : namedSchema? reference with
  | none =>
    rw [referenceShape_of_none named]
    exact (knowing free motive).unnamedShape keeps trail reference progress holds
  | some name =>
    by_cases mayWait : free name
    · by_cases answers : progress.answers name
      · obtain ⟨shape, ran⟩ := run_named_of_answers named answers
        rw [ran]
        exact holds.onward
      · have inside : (progress.begin name).Onward free motive
            ((targetShape document (shapeAt document depth) reference name).run
              (progress.begin name)).2 :=
          (knowing free motive).targetShape keeps reference name _ (holds.begin mayWait)
        rcases ran : (targetShape document (shapeAt document depth) reference name).run
          (progress.begin name) with ⟨result, left⟩
        have whole : (referenceShape document (shapeAt document depth) trail reference).run
            progress = (result, left.settle name result) := by
          rw [run_named_of_not_answers named answers, ran]
        rw [ran] at inside
        rw [whole]
        refine inside.settle fun shape given => ?_
        rw [given] at whole
        exact upholds.given named mayWait holds
          (performed_of_referenceShape performed_of_shapeAt whole)
    · exact upholds.closed named mayWait holds depth trail

theorem knowing_shapeAt (upholds : Upholds document free motive) (depth : Nat) : ∀ trail schema,
    (knowing free motive).holds (shapeAt document depth trail schema)
      (shapeAt document depth trail schema) := by
  induction depth with
  | zero => exact fun _ _ => (knowing free motive).fail _
  | succ depth ih =>
    intro trail schema
    rw [shapeAt, shapeStep_eq]
    exact (knowing free motive).stepWith ih (knowing_referenceShape upholds ih) trail schema

theorem Passed.holds (passed : Passed document free progress)
    (upholds : Upholds document free motive) : progress.Holds free motive := by
  induction passed with
  | start => exact ⟨nofun, nofun⟩
  | converted _ depth trail schema ih => exact (knowing_shapeAt upholds depth trail schema _ ih).holds
  | aside _ idle _ ih => exact ⟨idle, ih.known⟩

end ApiBinding.OpenApi
