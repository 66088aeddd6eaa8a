import ApiBinding.Description
import Mathlib.Logic.Relation

/-!
What shapes are made of: the shapes met inside of a shape, the names under which some of them are
declared, and when two meetings of one name say the same about it.
-/

namespace ApiBinding

namespace Shape

def fields : Shape → List Field
  | object _ fields _ _ => fields
  | _ => []

/-- The shape of the values that a shape takes under names other than those of its fields. -/
def additional : Shape → Option Shape
  | object _ _ additional _ => additional
  | _ => none

def parts : Shape → List Shape
  | array element _ _ => [element]
  | generic _ argument _ => [argument]
  | shape => shape.fields.map FieldOf.type ++ shape.additional.toList

/-- The name under which a shape is declared: that of an object or of an enumeration. -/
def declaredName? : Shape → Option String
  | object name _ _ _ => label? name
  | enumeration name _ _ => label? name
  | _ => none

/-- Whether a shape is the other one or is met inside of it, at any depth. -/
def Reaches : Shape → Shape → Prop := Relation.ReflTransGen fun whole part => part ∈ whole.parts

/-- Whether nothing is known of a shape but its name. -/
def IsBare (shape : Shape) : Prop := shape.fields = [] ∧ shape.additional = none

/-- Whether two meetings of a name say the same about it: they are made of the same, or one is bare
where the other lists fields. -/
def Agrees (first second : Shape) : Prop :=
  (first.fields = second.fields ∧ first.additional = second.additional)
    ∨ (first.IsBare ∧ second.fields ≠ []) ∨ (second.IsBare ∧ first.fields ≠ [])

theorem sizeOf_lt_of_mem_parts {part shape : Shape} (h : part ∈ shape.parts) :
    sizeOf part < sizeOf shape := by
  cases shape with
  | array element nullable streamable =>
    have : part = element := by simpa [parts] using h
    rw [this, Shape.array.sizeOf_spec]
    omega
  | generic name argument nullable =>
    have : part = argument := by simpa [parts] using h
    rw [this, Shape.generic.sizeOf_spec]
    omega
  | object name fields additional nullable =>
    have h : (∃ field ∈ fields, field.type = part) ∨ additional = some part := by
      simpa [parts, Shape.fields, Shape.additional] using h
    rw [Shape.object.sizeOf_spec]
    rcases h with ⟨field, hf, rfl⟩ | rfl
    · have hl := List.sizeOf_lt_of_mem hf
      have ht : sizeOf field.type < sizeOf field := by
        cases field with
        | mk name type required =>
          rw [FieldOf.mk.sizeOf_spec]
          show sizeOf type < _
          omega
      omega
    · rw [Option.some.sizeOf_spec]
      omega
  | primitive kind nullable => simp [parts, fields, additional] at h
  | enumeration name members nullable => simp [parts, fields, additional] at h
  | unknown description nullable => simp [parts, fields, additional] at h

/-- What holds of a shape when it holds of all its parts holds of every shape. -/
@[elab_as_elim] theorem parts_induction {motive : Shape → Prop}
    (step : ∀ shape, (∀ part ∈ shape.parts, motive part) → motive shape) (shape : Shape) :
    motive shape :=
  step shape fun part _ => parts_induction step part
termination_by sizeOf shape
decreasing_by exact sizeOf_lt_of_mem_parts ‹_›

theorem parts_of_declaredName? {shape : Shape} {name : String}
    (h : shape.declaredName? = some name) :
    shape.parts = shape.fields.map FieldOf.type ++ shape.additional.toList := by
  cases shape <;> simp_all [declaredName?, parts]

theorem IsBare.parts_eq_nil {shape : Shape} {name : String} (bare : shape.IsBare)
    (h : shape.declaredName? = some name) : shape.parts = [] := by
  rw [parts_of_declaredName? h, bare.1, bare.2]
  rfl

theorem Reaches.refl (shape : Shape) : shape.Reaches shape := Relation.ReflTransGen.refl

theorem Reaches.part {root shape part : Shape} (h : root.Reaches shape)
    (hp : part ∈ shape.parts) : root.Reaches part := Relation.ReflTransGen.tail h hp

end Shape

namespace Operation

def shapes (operation : Operation) : List Shape :=
  operation.parameters.map Parameter.type ++ operation.responses.filterMap Response.type

theorem mem_shapes_of_parameter {operation : Operation} {parameter : Parameter}
    (h : parameter ∈ operation.parameters) : parameter.type ∈ operation.shapes :=
  List.mem_append_left _ (List.mem_map_of_mem h)

theorem mem_shapes_of_response {operation : Operation} {response : Response} {shape : Shape}
    (h : response ∈ operation.responses) (typed : response.type = some shape) :
    shape ∈ operation.shapes :=
  List.mem_append_right _ (List.mem_filterMap.mpr ⟨response, h, typed⟩)

/-- Whether the operation takes or answers with the shape, or with one it is met inside of. -/
def Reaches (operation : Operation) (shape : Shape) : Prop :=
  ∃ root ∈ operation.shapes, root.Reaches shape

/-- Whether all meetings of a name in the operation say the same about it. -/
def IsConsistent (operation : Operation) : Prop :=
  ∀ first second name, operation.Reaches first → operation.Reaches second →
    first.declaredName? = some name → second.declaredName? = some name → first.Agrees second

theorem Reaches.part {operation : Operation} {shape part : Shape} (h : operation.Reaches shape)
    (hp : part ∈ shape.parts) : operation.Reaches part := by
  obtain ⟨root, hroot, hr⟩ := h
  exact ⟨root, hroot, hr.part hp⟩

/-- What holds of the shapes of an operation and goes over to parts holds of all it reaches. -/
theorem Reaches.of_closed {operation : Operation} {motive : Shape → Prop}
    (roots : ∀ shape ∈ operation.shapes, motive shape)
    (step : ∀ shape, motive shape → ∀ part ∈ shape.parts, motive part) {shape : Shape}
    (h : operation.Reaches shape) : motive shape := by
  obtain ⟨root, hroot, h⟩ := h
  induction h with
  | refl => exact roots root hroot
  | tail _ hp ih => exact step _ ih _ hp

/-- The operation that takes nothing and answers with a shape for each status. -/
def answering (tag name : String) (answers : List (String × Shape)) : Operation where
  tag
  name := .text name
  method := "get"
  path := "/" ++ name
  responses := answers.map fun answer => { status := answer.1, type := some answer.2 }

@[simp] theorem shapes_answering (tag name : String) (answers : List (String × Shape)) :
    (answering tag name answers).shapes = answers.map Prod.snd := by
  show (answers.map _).filterMap Response.type = _
  rw [List.filterMap_map]
  exact congrFun List.filterMap_eq_map answers

end Operation

/-- Whether some operation of the description takes or answers with the shape. -/
def Description.Reaches (description : Description) (shape : Shape) : Prop :=
  ∃ operation ∈ description.operations, operation.Reaches shape

end ApiBinding
