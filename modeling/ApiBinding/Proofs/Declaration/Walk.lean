import ApiBinding.Proofs.Declaration.Meeting

/-!
The walk that collects declarations, as a relation with one rule for each thing that can happen to
the next shape. The shapes that are still to be met stand on an agenda; the parts of a shape go in
front of what was on it before.
-/

namespace ApiBinding.Declaration

open Identifier (ofRaw)

/-- Whether a meeting adds nothing to what is declared under its name. -/
def isKnown (existing : Option Declaration) (shape : Shape) : Bool :=
  existing.any fun d => d.hasFields || shape.fields.isEmpty

/-- How the walk goes on from the declarations found so far over the shapes on the agenda. -/
inductive Walk : List Declaration → List Shape → Except Failure (List Declaration) → Prop
  | done (found) : Walk found [] (.ok found)
  | unnamed {found shape agenda out} (name : shape.declaredName? = none)
      (rest : Walk found (shape.parts ++ agenda) out) : Walk found (shape :: agenda) out
  | clash {found shape agenda source d} (name : shape.declaredName? = some source)
      (existing : find? found (ofRaw .type source) = some d) (differs : d.source ≠ source) :
      Walk found (shape :: agenda)
        (.error (.collision .types (ofRaw .type source) d.source source))
  | known {found shape agenda out source d} (name : shape.declaredName? = some source)
      (existing : find? found (ofRaw .type source) = some d) (same : d.source = source)
      (known : d.hasFields = true ∨ shape.fields = []) (rest : Walk found agenda out) :
      Walk found (shape :: agenda) out
  | misfit {found shape agenda source failure} (name : shape.declaredName? = some source)
      (refused : ofMeeting source shape = .error failure) :
      Walk found (shape :: agenda) (.error failure)
  | declared {found shape agenda out source d} (name : shape.declaredName? = some source)
      (fresh : ∀ e, find? found (ofRaw .type source) = some e →
        e.source = source ∧ e.hasFields = false ∧ shape.fields ≠ [])
      (made : ofMeeting source shape = .ok d)
      (rest : Walk (put d found) (shape.parts ++ agenda) out) : Walk found (shape :: agenda) out

theorem addFields_eq_foldlM (found : List Declaration) (fields : List Field) :
    addFields found fields = (fields.map FieldOf.type).foldlM addShape found := by
  induction fields generalizing found with
  | nil => rfl
  | cons field fields ih =>
    rw [addFields, List.map_cons, List.foldlM_cons]
    exact congrArg _ (funext fun found => ih found)

theorem addShape_unnamed (found : List Declaration) {shape : Shape}
    (name : shape.declaredName? = none) :
    addShape found shape = shape.parts.foldlM addShape found := by
  cases shape with
  | array element nullable streamable => simp [addShape, Shape.parts]
  | generic label argument nullable => simp [addShape, Shape.parts]
  | primitive kind nullable => rfl
  | unknown description nullable => rfl
  | enumeration label members nullable =>
    have : Shape.label? label = none := name
    simp [addShape, this, Shape.parts, Shape.fields, Shape.additional]
  | object label fields additional nullable =>
    have : Shape.label? label = none := name
    rw [addShape, this, Shape.parts, List.foldlM_append]
    · simp only [addFields_eq_foldlM, Shape.fields]
      refine congrArg _ (funext fun found => ?_)
      cases additional <;> simp [Shape.additional]
    · simp
    · simp

theorem addShape_named (found : List Declaration) {shape : Shape} {source : String}
    (name : shape.declaredName? = some source) :
    addShape found shape = (do
      requireSource (find? found (ofRaw .type source)) (ofRaw .type source) source
      if isKnown (find? found (ofRaw .type source)) shape then return found
      else shape.parts.foldlM addShape (put (← ofMeeting source shape) found)) := by
  cases shape with
  | array element nullable streamable => cases name
  | generic label argument nullable => cases name
  | primitive kind nullable => cases name
  | unknown description nullable => cases name
  | enumeration label members nullable =>
    have : Shape.label? label = some source := name
    rw [addShape, this]
    cases h : find? found (ofRaw .type source) with
    | none => simp [isKnown, ofMeeting, h, Shape.parts, Shape.fields, Shape.additional]
    | some d => simp [isKnown, h, Shape.fields]
  | object label fields additional nullable =>
    have : Shape.label? label = some source := name
    rw [addShape, this, Shape.parts]
    · simp only [List.foldlM_append, addFields_eq_foldlM, Shape.fields]
      refine congrArg _ (funext fun _ => ?_)
      simp only [isKnown, ofMeeting, Shape.fields, Shape.additional]
      by_cases hk : (find? found (ofRaw .type source)).any fun d => d.hasFields || fields.isEmpty
      · simp [hk]
      · simp only [hk]
        cases additional <;> simp
    · simp
    · simp

/-- A named shape that is added is known by then, or its declaration comes before its parts. -/
theorem addShape_eq_ok {found found' : List Declaration} {shape : Shape} {source : String}
    (name : shape.declaredName? = some source) (h : addShape found shape = .ok found') :
    (∃ d, find? found (ofRaw .type source) = some d ∧ d.source = source ∧
        (d.hasFields = true ∨ shape.fields = []) ∧ found' = found) ∨
      ∃ d, (∀ e, find? found (ofRaw .type source) = some e →
          e.source = source ∧ e.hasFields = false ∧ shape.fields ≠ []) ∧
        ofMeeting source shape = .ok d ∧ shape.parts.foldlM addShape (put d found) = .ok found' := by
  rw [addShape_named found name] at h
  obtain ⟨_, required, h⟩ := bind_eq_ok.mp h
  have same : ∀ e, find? found (ofRaw .type source) = some e → e.source = source := by
    intro e existing
    rw [existing] at required
    by_contra differs
    simp [requireSource, differs] at required
  cases existing : find? found (ofRaw .type source) with
  | none =>
    rw [existing] at h
    obtain ⟨d, made, h⟩ := bind_eq_ok.mp h
    exact .inr ⟨d, by simp, made, h⟩
  | some e =>
    rw [existing] at h
    by_cases known : e.hasFields = true ∨ shape.fields = []
    · have passed : isKnown (some e) shape = true := by simpa [isKnown] using known
      rw [if_pos passed] at h
      cases h
      exact .inl ⟨e, rfl, same e existing, known, rfl⟩
    · have fresh : e.hasFields = false ∧ shape.fields ≠ [] := by simpa using known
      have replaced : ¬isKnown (some e) shape = true := by simpa [isKnown] using fresh
      rw [if_neg replaced] at h
      obtain ⟨d, made, h⟩ := bind_eq_ok.mp h
      refine .inr ⟨d, fun e' he => ?_, made, h⟩
      obtain rfl := Option.some.inj he
      exact ⟨same e existing, fresh⟩

private theorem walk_foldlM {shapes agenda : List Shape}
    {next : List Declaration → Except Failure (List Declaration)}
    (each : ∀ shape ∈ shapes, ∀ agenda next found, (∀ found, Walk found agenda (next found)) →
      Walk found (shape :: agenda) (addShape found shape >>= next))
    (rest : ∀ found, Walk found agenda (next found)) (found : List Declaration) :
    Walk found (shapes ++ agenda) (shapes.foldlM addShape found >>= next) := by
  induction shapes generalizing found with
  | nil => exact rest found
  | cons shape shapes ih =>
    rw [List.foldlM_cons, bind_assoc]
    apply each shape (by simp) _ _ found
    intro found
    exact ih (fun shape hs => each shape (by simp [hs])) found

/-- Adding a shape is walking over it, whatever comes after it. -/
theorem walk_addShape (shape : Shape) : ∀ (agenda : List Shape)
    (next : List Declaration → Except Failure (List Declaration)) (found : List Declaration),
    (∀ found, Walk found agenda (next found)) →
      Walk found (shape :: agenda) (addShape found shape >>= next) := by
  -- The parts are met with other agendas than the shape, so the statement is about all of them.
  induction shape using Shape.parts_induction with
  | step shape ih =>
  intro agenda next found rest
  cases name : shape.declaredName? with
  | none =>
    rw [addShape_unnamed found name]
    exact .unnamed name (walk_foldlM ih rest found)
  | some source =>
    rw [addShape_named found name]
    cases existing : find? found (ofRaw .type source) with
    | none =>
      cases made : ofMeeting source shape with
      | error failure => simpa [requireSource, isKnown] using Walk.misfit name made
      | ok d =>
        simp only [requireSource, isKnown, Option.any_none, ok_bind, Bool.false_eq_true, if_false]
        exact .declared name (by simp [existing]) made (walk_foldlM ih rest _)
    | some e =>
      by_cases same : e.source = source
      · by_cases known : e.hasFields = true ∨ shape.fields = []
        · have : isKnown (some e) shape = true := by simpa [isKnown] using known
          simp only [requireSource, same, if_true, ok_bind, this, pure_eq_ok]
          exact .known name existing same known (rest found)
        · have fresh : e.hasFields = false ∧ shape.fields ≠ [] := by simpa using known
          have : isKnown (some e) shape = false := by simpa [isKnown] using fresh
          simp only [requireSource, same, if_true, ok_bind, this, Bool.false_eq_true, if_false]
          cases made : ofMeeting source shape with
          | error failure => exact .misfit name made
          | ok d =>
            refine .declared name (fun e' he => ?_) made (walk_foldlM ih rest _)
            obtain rfl : e = e' := by simpa [existing] using he
            exact ⟨same, fresh⟩
      · simp only [requireSource, same, if_false, error_bind]
        exact .clash name existing same

theorem walk_shapes (shapes : List Shape) (found : List Declaration) :
    Walk found shapes (shapes.foldlM addShape found) := by
  simpa using walk_foldlM (fun shape _ => walk_addShape shape) (fun found => Walk.done found) found

theorem collect_eq_foldlM (shapes : List (Option Shape)) :
    collect shapes = (shapes.filterMap id).foldlM addShape [] := by
  rw [collect, List.foldlM_filterMap]
  refine congrArg (fun f => List.foldlM f [] shapes) (funext fun found => funext fun shape => ?_)
  cases shape <;> rfl

abbrev collected (operation : Operation) : Except Failure (List Declaration) :=
  collect (operation.parameters.map (fun parameter => some parameter.type)
    ++ operation.responses.map Response.type)

theorem walk_collected (operation : Operation) :
    Walk [] operation.shapes (collected operation) := by
  have hs : (operation.parameters.map (fun parameter => some parameter.type)
      ++ operation.responses.map Response.type).filterMap id = operation.shapes := by
    simp [Operation.shapes, List.filterMap_map]
  rw [collected, collect_eq_foldlM, hs]
  exact walk_shapes operation.shapes []

end ApiBinding.Declaration
