import ApiBinding.OpenApi.Operations
import ApiBinding.Proofs.OpenApi.Keeping

/-!
Conversions that agree. What holds of the single steps of two conversions, and of one after the
other, holds of the conversions of schemas and of whole documents, if it holds where references are
followed.
-/

namespace ApiBinding.OpenApi

/-- A way to compare conversions of which the results are equal. -/
structure Agreement where
  holds : {α : Type} → Conversion α → Conversion α → Prop
  pure : ∀ {α : Type} (a : α), holds (pure a) (pure a)
  fail : ∀ {α : Type} (failure : Failure), holds (throw failure : Conversion α) (throw failure)
  warn : ∀ warning : Warning, holds (warn warning) (OpenApi.warn warning)
  bind : ∀ {α β : Type} {first first' : Conversion α} {next next' : α → Conversion β},
    holds first first' → (∀ a, holds (next a) (next' a)) →
    holds (first >>= next) (first' >>= next')

/-- The conversion of a schema that follows references in a given way. -/
def stepWith (refer : Trail → String → Conversion Shape) (shapeOf : Converter) (trail : Trail)
    (schema : Value) : Conversion Shape := do
  if !schema.isMap then return .unknown (some "non-object schema") false
  let trail ← trail.into schema
  match schema.get referenceKey with
  | .null => inlineShape shapeOf trail schema none
  | .text reference => return nullIf (allowsNull schema) (← refer trail reference)
  | .scalar (.bytes _) => throw (.misuse .wrongKind)
  | _ => throw (.misuse .noMember)

theorem shapeStep_eq (document : Value) (shapeOf : Converter) (trail : Trail) (schema : Value) :
    shapeStep document shapeOf trail schema =
      stepWith (referenceShape document shapeOf) shapeOf trail schema := rfl

namespace Agreement

variable (agreement : Agreement) {α β : Type}

theorem lift {result : Except Failure α} {next next' : α → Conversion β}
    (rest : ∀ a, agreement.holds (next a) (next' a)) :
    agreement.holds ((liftM result : Conversion α) >>= next)
      ((liftM result : Conversion α) >>= next') := by
  cases result with
  | error failure => exact agreement.fail failure
  | ok a => exact rest a

theorem lifted (result : Except Failure α) :
    agreement.holds (liftM result : Conversion α) (liftM result) := by
  cases result with
  | error failure => exact agreement.fail failure
  | ok a => exact agreement.pure a

def comparison : Comparison where
  alike := Eq
  holds := agreement.holds
  refl _ := rfl
  map₂ := @congrArg₂
  pure h := h ▸ agreement.pure _
  fail _ := agreement.fail _
  bind here rest := agreement.bind here fun a => rest a a rfl
  lift {_ _ result _ _} _ rest := by
    cases result with
    | error failure => exact agreement.fail failure
    | ok a => exact rest a rfl
  absorb name merged merged' shape shape' h h' := by
    subst h h'
    cases shape with
    | object => exact agreement.pure _
    | _ => exact agreement.bind (agreement.warn _) fun _ => agreement.pure _

section

variable {document : Value} {shapeOf shapeOf' : Converter}
  (shapes : ∀ trail schema, agreement.holds (shapeOf trail schema) (shapeOf' trail schema))

include shapes

theorem inlineShape (trail : Trail) (schema : Value) (name : Option String) :
    agreement.holds (inlineShape shapeOf trail schema name)
      (OpenApi.inlineShape shapeOf' trail schema name) := by
  have parts : ∀ part, Part schema part →
      agreement.comparison.holds (shapeOf trail part) (shapeOf' trail part) :=
    fun part _ => shapes trail part
  exact agreement.comparison.inlineShape parts name

theorem targetShape (reference name : String) :
    agreement.holds (targetShape document shapeOf reference name)
      (OpenApi.targetShape document shapeOf' reference name) := by
  refine agreement.lift fun target => ?_
  split
  next =>
    split
    next => exact shapes [] target
    next => exact agreement.inlineShape shapes [] target (some name)
  next => exact agreement.fail _

/-- A reference that names no schema is followed as it stands. -/
theorem unnamedShape (trail : Trail) (reference : String) :
    agreement.holds
      (do shapeOf (← trail.passing (.reference reference)) (← referenced document reference))
      (do shapeOf' (← trail.passing (.reference reference)) (← referenced document reference)) :=
  agreement.lift fun trail => agreement.lift fun target => shapes trail target

theorem stepWith {refer refer' : Trail → String → Conversion Shape}
    (refers : ∀ trail reference, agreement.holds (refer trail reference) (refer' trail reference))
    (trail : Trail) (schema : Value) :
    agreement.holds (stepWith refer shapeOf trail schema)
      (OpenApi.stepWith refer' shapeOf' trail schema) := by
  unfold OpenApi.stepWith
  split
  next => exact agreement.pure _
  next =>
    refine agreement.lift fun trail => ?_
    split
    next => exact agreement.inlineShape shapes trail schema none
    next => exact agreement.bind (refers trail _) fun _ => agreement.pure _
    next => exact agreement.fail _
    next => exact agreement.fail _

end

section

variable {convert convert' : Value → Conversion Shape}
  (converts : ∀ schema, agreement.holds (convert schema) (convert' schema)) (document : Value)

include converts

theorem parameterOf (method path : String) (parameter : Value) :
    agreement.holds (parameterOf convert method path parameter)
      (OpenApi.parameterOf convert' method path parameter) := by
  unfold OpenApi.parameterOf
  split
  next =>
    refine agreement.lift fun _ => agreement.lift fun _ => ?_
    exact agreement.bind (agreement.warn _) fun _ => agreement.pure _
  next =>
    refine agreement.lift fun schema => agreement.bind (converts schema) fun type => ?_
    exact agreement.pure _

theorem parametersOf (method path : String) (parameters : List Value) :
    agreement.holds (parametersOf convert method path parameters)
      (OpenApi.parametersOf convert' method path parameters) := by
  induction parameters with
  | nil => exact agreement.pure _
  | cons parameter rest ih =>
    refine agreement.bind (agreement.parameterOf converts method path parameter) fun _ => ?_
    exact agreement.bind ih fun _ => agreement.pure _

theorem bodyOf (body : Value) :
    agreement.holds (bodyOf convert body) (OpenApi.bodyOf convert' body) := by
  unfold OpenApi.bodyOf
  refine agreement.lift fun content => agreement.lift fun bytes => ?_
  split
  · exact agreement.pure _
  · refine agreement.lift fun schema => ?_
    split
    · exact agreement.pure _
    · exact agreement.bind (converts _) fun _ => agreement.pure _

theorem responseShape (response : Value) :
    agreement.holds (responseShape convert response) (OpenApi.responseShape convert' response) := by
  unfold OpenApi.responseShape
  refine agreement.lift fun bytes => ?_
  split
  · split
    · exact agreement.bind (converts _) fun _ => agreement.pure _
    · exact agreement.fail _
  · refine agreement.lift fun content => ?_
    split
    · refine agreement.lift fun bytes => ?_
      split
      · exact agreement.pure _
      · refine agreement.lift fun schema => ?_
        split
        · exact agreement.pure _
        · exact agreement.bind (converts _) fun _ => agreement.pure _
    · exact agreement.pure _

theorem responseOf (status : String) (response : Value) :
    agreement.holds (responseOf convert status response)
      (OpenApi.responseOf convert' status response) :=
  agreement.bind (agreement.responseShape converts response) fun _ => agreement.pure _

theorem responsesOf (entries : List (Scalar × Value)) :
    agreement.holds (responsesOf convert document entries)
      (OpenApi.responsesOf convert' document entries) := by
  induction entries with
  | nil => exact agreement.pure _
  | cons entry rest ih =>
    obtain ⟨status, response⟩ := entry
    refine agreement.lift fun _ => agreement.lift fun response => ?_
    refine agreement.bind (agreement.responseOf converts status.display response) fun _ => ?_
    exact agreement.bind ih fun _ => agreement.pure _

theorem bodiesOf (operation : Value) :
    agreement.holds (bodiesOf convert document operation)
      (OpenApi.bodiesOf convert' document operation) := by
  unfold OpenApi.bodiesOf
  split
  · exact agreement.pure _
  · refine agreement.lift fun body => ?_
    exact agreement.bind (agreement.bodyOf converts body) fun _ => agreement.pure _

theorem operationOf (method path : String) (operation : Value) (common : List Value) :
    agreement.holds (operationOf convert document method path operation common)
      (OpenApi.operationOf convert' document method path operation common) := by
  refine agreement.lift fun named => agreement.lift fun own => agreement.lift fun merged => ?_
  refine agreement.bind (agreement.parametersOf converts _ path _) fun parameters => ?_
  refine agreement.bind (agreement.bodiesOf converts document operation) fun body => ?_
  refine agreement.lift fun entries => ?_
  have responses := agreement.responsesOf converts document entries
  split
  · refine agreement.bind (agreement.pure _) fun summary => ?_
    exact agreement.bind responses fun _ => agreement.pure _
  · refine agreement.lift fun summary => ?_
    exact agreement.bind responses fun _ => agreement.pure _

theorem operationsOf (path : String) (item : Value) (common : List Value) (methods : List String) :
    agreement.holds (operationsOf convert document path item common methods)
      (OpenApi.operationsOf convert' document path item common methods) := by
  induction methods with
  | nil => exact agreement.pure _
  | cons method rest ih =>
    unfold OpenApi.operationsOf
    split
    next => exact ih
    next =>
      split
      next => exact agreement.fail _
      next =>
        refine agreement.bind (agreement.operationOf converts document method path _ common)
          fun _ => ?_
        exact agreement.bind ih fun _ => agreement.pure _

theorem pathsOf (entries : List (Scalar × Value)) :
    agreement.holds (pathsOf convert document entries)
      (OpenApi.pathsOf convert' document entries) := by
  induction entries with
  | nil => exact agreement.pure _
  | cons entry rest ih =>
    obtain ⟨path, item⟩ := entry
    unfold OpenApi.pathsOf
    refine agreement.lift fun item => agreement.lift fun _ => ?_
    split
    next =>
      refine agreement.lift fun common => ?_
      refine agreement.bind (agreement.operationsOf converts document path.display item common verbs)
        fun _ => ?_
      exact agreement.bind ih fun _ => agreement.pure _
    next => exact agreement.fail _

theorem describeBy :
    agreement.holds (describeBy convert document) (OpenApi.describeBy convert' document) := by
  have rest := agreement.pathsOf converts document
  refine agreement.lift fun paths => ?_
  split
  · refine agreement.bind (agreement.pure _) fun entries => ?_
    exact agreement.bind (rest entries) fun _ => agreement.pure _
  · refine agreement.bind (agreement.pure _) fun entries => ?_
    exact agreement.bind (rest entries) fun _ => agreement.pure _
  · exact agreement.fail _

end

end Agreement

end ApiBinding.OpenApi
