import ApiBinding.Proofs.Entries
import ApiBinding.Proofs.Shape
import ApiBinding.TypeHint

/-!
The names of declared types that hints mention and the enumerations that they spell out, with the
shapes from which the hint of a shape has them; the containers in hints, of which only the outermost
can hand over its items one by one.
-/

namespace ApiBinding.TypeHint

open Identifier (ofRaw)

mutual

/-- The names of declared types that a hint mentions, at any depth. -/
def modelNames : TypeHint → List String
  | named name isModel _ => if isModel then [name] else []
  | applied _ arguments _ => allModelNames arguments
  | _ => []

def allModelNames : List TypeHint → List String
  | [] => []
  | hint :: rest => modelNames hint ++ allModelNames rest

end

@[simp] theorem modelNames_none : TypeHint.none.modelNames = [] := rfl

@[simp] theorem modelNames_any (nullable : Bool) : (any nullable).modelNames = [] := rfl

@[simp] theorem modelNames_literal (members : List Value) (nullable : Bool) :
    (literal members nullable).modelNames = [] := rfl

@[simp] theorem modelNames_model (name : String) (nullable : Bool) :
    (named name true nullable).modelNames = [name] := rfl

@[simp] theorem modelNames_ofPrimitive (kind : Primitive) (nullable : Bool) :
    (ofPrimitive kind nullable).modelNames = [] := by
  cases kind <;> rfl

@[simp] theorem modelNames_applied (container : Container) (argument : TypeHint) (nullable : Bool) :
    (applied container [argument] nullable).modelNames = argument.modelNames := by
  simp [modelNames, allModelNames]

@[simp] theorem modelNames_withNull (nullable : Bool) (hint : TypeHint) :
    (hint.withNull nullable).modelNames = hint.modelNames := by
  cases hint <;> rfl

/-- The hint of a shape mentions the named shapes that are met inside of it before another name. -/
theorem mem_modelNames_ofShape {met : Shape → Prop}
    (inside : ∀ shape, met shape → shape.declaredName? = Option.none →
      ∀ part ∈ shape.parts, met part)
    {shape : Shape} (hs : met shape) {context : Context} {name : String}
    (h : name ∈ (ofShape context shape).modelNames) :
    ∃ part source, met part ∧ part.declaredName? = some source ∧ name = ofRaw .type source := by
  induction shape using Shape.parts_induction generalizing context with
  | step shape ih =>
  cases shape with
  | primitive kind nullable => simp [ofShape] at h
  | unknown description nullable => simp [ofShape] at h
  | array element nullable streamable =>
    have part : element ∈ (Shape.array element nullable streamable).parts := by simp [Shape.parts]
    exact ih element part (inside _ hs rfl element part) (by simpa [ofShape] using h)
  | generic label argument nullable =>
    have part : argument ∈ (Shape.generic label argument nullable).parts := by simp [Shape.parts]
    exact ih argument part (inside _ hs rfl argument part) (by simpa [ofShape] using h)
  | enumeration label members nullable =>
    cases hl : Shape.label? label with
    | none => by_cases hm : members.isEmpty <;> simp [ofShape, hl, hm] at h
    | some source => exact ⟨_, source, hs, hl, by simpa [ofShape, hl] using h⟩
  | object label fields additional nullable =>
    cases hl : Shape.label? label with
    | some source =>
      cases additional with
      | none => exact ⟨_, source, hs, hl, by simpa [ofShape, hl] using h⟩
      | some value => exact ⟨_, source, hs, hl, by simpa [ofShape, hl] using h⟩
    | none =>
      cases additional with
      | none => simp [ofShape, hl] at h
      | some value =>
        have part : value ∈ (Shape.object label fields (some value) nullable).parts := by
          simp [Shape.parts, Shape.additional]
        exact ih value part (inside _ hs hl value part) (by simpa [ofShape, hl] using h)

/-- The hint of a shape can be spelled out if all enumerations inside of it list fixed members. -/
theorem canSpell_of_members {shape : Shape}
    (fixed : ∀ name members nullable, shape.Reaches (.enumeration name members nullable) →
      members.all Value.isFixed = true) : canSpell shape = true := by
  induction shape using Shape.parts_induction with
  | step shape ih =>
  have part {s : Shape} (hs : s ∈ shape.parts) : canSpell s = true := by
    apply ih s hs
    intro name members nullable inside
    exact fixed name members nullable (Relation.ReflTransGen.head hs inside)
  cases shape with
  | primitive kind nullable => rfl
  | unknown description nullable => rfl
  | array element nullable streamable => exact part (s := element) (by simp [Shape.parts])
  | generic name argument nullable => exact part (s := argument) (by simp [Shape.parts])
  | enumeration name members nullable =>
    simp [canSpell, fixed name members nullable (Shape.Reaches.refl _)]
  | object name fields additional nullable =>
    cases hl : Shape.label? name with
    | some label => simp [canSpell, hl]
    | none =>
      cases additional with
      | none => simp [canSpell, hl]
      | some value =>
        simpa [canSpell, hl] using part (s := value) (by simp [Shape.parts, Shape.additional])

mutual

/-- The members of the enumerations that a hint spells out, at any depth. -/
def literals : TypeHint → List (List Value)
  | literal members _ => [members]
  | applied _ arguments _ => allLiterals arguments
  | _ => []

def allLiterals : List TypeHint → List (List Value)
  | [] => []
  | hint :: rest => literals hint ++ allLiterals rest

end

@[simp] theorem literals_none : TypeHint.none.literals = [] := rfl

@[simp] theorem literals_any (nullable : Bool) : (any nullable).literals = [] := rfl

@[simp] theorem literals_named (name : String) (isModel nullable : Bool) :
    (named name isModel nullable).literals = [] := rfl

@[simp] theorem literals_literal (members : List Value) (nullable : Bool) :
    (literal members nullable).literals = [members] := rfl

@[simp] theorem literals_ofPrimitive (kind : Primitive) (nullable : Bool) :
    (ofPrimitive kind nullable).literals = [] := by
  cases kind <;> rfl

@[simp] theorem literals_applied (container : Container) (argument : TypeHint) (nullable : Bool) :
    (applied container [argument] nullable).literals = argument.literals := by
  simp [literals, allLiterals]

@[simp] theorem literals_withNull (nullable : Bool) (hint : TypeHint) :
    (hint.withNull nullable).literals = hint.literals := by
  cases hint <;> rfl

/-- Whether members are those that a hint lists for one of some shapes: an enumeration that has no
name, but members. -/
def SpelledAmong (all : Shape → Prop) (members : List Value) : Prop :=
  ∃ title values nullable, all (.enumeration title values nullable) ∧
    Shape.label? title = Option.none ∧ values ≠ [] ∧ members = Entries.distinct Value.same values

theorem SpelledAmong.imp {all all' : Shape → Prop} {members : List Value}
    (spelled : SpelledAmong all members) (h : ∀ shape, all shape → all' shape) :
    SpelledAmong all' members := by
  obtain ⟨title, values, nullable, among, rest⟩ := spelled
  exact ⟨title, values, nullable, h _ among, rest⟩

theorem SpelledAmong.ne_nil {all : Shape → Prop} {members : List Value}
    (spelled : SpelledAmong all members) : members ≠ [] := by
  obtain ⟨_, values, _, _, _, filled, rfl⟩ := spelled
  exact fun empty => filled (Entries.distinct_eq_nil.mp empty)

/-- What the hint of a shape spells out are enumerations inside of the shape. -/
theorem spelled_of_mem_literals {shape : Shape} {context : Context} {members : List Value}
    (h : members ∈ (ofShape context shape).literals) : SpelledAmong shape.Reaches members := by
  induction shape using Shape.parts_induction generalizing context with
  | step shape ih =>
  have inside {s : Shape} {context : Context} (hs : s ∈ shape.parts)
      (h : members ∈ (ofShape context s).literals) : SpelledAmong shape.Reaches members :=
    (ih s hs h).imp fun _ reached => Relation.ReflTransGen.head hs reached
  cases shape with
  | primitive kind nullable => simp [ofShape] at h
  | unknown description nullable => simp [ofShape] at h
  | array element nullable streamable =>
    exact inside (s := element) (by simp [Shape.parts]) (by simpa [ofShape] using h)
  | generic label argument nullable =>
    exact inside (s := argument) (by simp [Shape.parts]) (by simpa [ofShape] using h)
  | enumeration title values nullable =>
    cases label : Shape.label? title with
    | some source => simp [ofShape, label] at h
    | none =>
      by_cases filled : values = []
      · simp [ofShape, label, filled] at h
      · have listed : members = Entries.distinct Value.same values := by
          simpa [ofShape, label, filled] using h
        exact ⟨title, values, nullable, Shape.Reaches.refl _, label, filled, listed⟩
  | object title fields additional nullable =>
    cases label : Shape.label? title with
    | some source => cases additional <;> simp [ofShape, label] at h
    | none =>
      cases additional with
      | none => simp [ofShape, label] at h
      | some value =>
        have part : value ∈ (Shape.object title fields (some value) nullable).parts := by
          simp [Shape.parts, Shape.additional]
        exact inside part (by simpa [ofShape, label] using h)

mutual

/-- The containers in a hint, at any depth. -/
def containers : TypeHint → List Container
  | applied container arguments _ => container :: allContainers arguments
  | _ => []

def allContainers : List TypeHint → List Container
  | [] => []
  | hint :: rest => containers hint ++ allContainers rest

end

@[simp] theorem containers_any (nullable : Bool) : (any nullable).containers = [] := rfl

@[simp] theorem containers_named (name : String) (isModel nullable : Bool) :
    (named name isModel nullable).containers = [] := rfl

@[simp] theorem containers_literal (members : List Value) (nullable : Bool) :
    (literal members nullable).containers = [] := rfl

@[simp] theorem containers_ofPrimitive (kind : Primitive) (nullable : Bool) :
    (ofPrimitive kind nullable).containers = [] := by
  cases kind <;> rfl

@[simp] theorem containers_applied (container : Container) (argument : TypeHint) (nullable : Bool) :
    (applied container [argument] nullable).containers = container :: argument.containers := by
  simp [containers, allContainers]

@[simp] theorem containers_withNull (nullable : Bool) (hint : TypeHint) :
    (hint.withNull nullable).containers = hint.containers := by
  cases hint <;> rfl

theorem arrayContainer_ne_generic (context : Context) (streamable : Bool) (name : String) :
    context.arrayContainer streamable ≠ .generic name := by
  unfold Context.arrayContainer
  split
  · nofun
  · split <;> nofun

/-- A container that keeps the name given to it is called by the made one. -/
theorem name_of_genericContainer {label name : String}
    (h : genericContainer label = .generic name) : name = ofRaw .type label := by
  unfold genericContainer at h
  dsimp only at h
  split at h
  · cases h
  · split at h <;> cases h
    rfl

/-- Whether a container hands over its items one by one. -/
def isItemwise : Container → Bool
  | .stream | .producer => true
  | _ => false

theorem isItemwise_genericContainer (name : String) :
    isItemwise (genericContainer name) = false := by
  unfold genericContainer
  dsimp only
  split
  · rfl
  · split <;> rfl

/-- What a shape contains is not handed over item by item. -/
theorem isItemwise_of_inner (context : Context) {shape : Shape} :
    ∀ container ∈ (ofShape context.inner shape).containers, isItemwise container = false := by
  have inner : context.inner.inner = context.inner := rfl
  induction shape using Shape.parts_induction with
  | step shape ih =>
  cases shape with
  | primitive kind nullable => simp [ofShape]
  | unknown description nullable => simp [ofShape]
  | array element nullable streamable =>
    have whole : context.inner.arrayContainer streamable = .list := by
      simp [Context.arrayContainer, Context.inner]
    rw [ofShape, containers_applied, whole, inner, List.forall_mem_cons]
    exact ⟨rfl, ih element (by simp [Shape.parts])⟩
  | generic name argument nullable =>
    rw [ofShape, containers_applied, inner, List.forall_mem_cons]
    exact ⟨isItemwise_genericContainer name, ih argument (by simp [Shape.parts])⟩
  | enumeration label members nullable =>
    cases hl : Shape.label? label <;> by_cases hm : members.isEmpty <;> simp [ofShape, hl, hm]
  | object label fields additional nullable =>
    cases hl : Shape.label? label with
    | some source => cases additional <;> simp [ofShape, hl]
    | none =>
      cases additional with
      | none => simp [ofShape, hl, isItemwise]
      | some value =>
        have given := ih value (by simp [Shape.parts, Shape.additional])
        simp only [ofShape, hl, containers_applied, inner, List.forall_mem_cons]
        exact ⟨rfl, given⟩

theorem arrayContainer_eq_producer {context : Context} {streamable : Bool} :
    context.arrayContainer streamable = .producer ↔
      context.usage = .body ∧ context.streamsBody = true ∧ streamable = true := by
  unfold Context.arrayContainer
  cases streamable <;> cases context.usage <;> cases context.streamsBody <;>
    cases context.streamsResult <;> simp

/-- The hint of a shape has a producer of items only where the shape is an array that may be
streamed, in a body that is. -/
theorem producer_mem_containers {context : Context} {shape : Shape} :
    .producer ∈ (ofShape context shape).containers ↔
      context.usage = .body ∧ context.streamsBody = true ∧ shape.canStream = true := by
  have inner (part : Shape) : .producer ∉ (ofShape context.inner part).containers :=
    fun member => absurd (isItemwise_of_inner context _ member) (by decide)
  cases shape with
  | primitive kind nullable => simp [ofShape, Shape.canStream]
  | unknown description nullable => simp [ofShape, Shape.canStream]
  | array element nullable streamable =>
    rw [ofShape, containers_applied, List.mem_cons, or_iff_left (inner element), eq_comm]
    exact arrayContainer_eq_producer
  | generic name argument nullable =>
    have other : .producer ≠ genericContainer name := by
      intro same
      exact absurd (isItemwise_genericContainer name) (by rw [← same]; decide)
    simp [ofShape, inner argument, other, Shape.canStream]
  | enumeration label members nullable =>
    cases hl : Shape.label? label <;> by_cases hm : members.isEmpty <;>
      simp [ofShape, hl, hm, Shape.canStream]
  | object label fields additional nullable =>
    cases hl : Shape.label? label <;> cases additional <;>
      simp [ofShape, hl, inner, Shape.canStream]

end ApiBinding.TypeHint
