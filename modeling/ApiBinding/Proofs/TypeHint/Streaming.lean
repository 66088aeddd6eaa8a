import ApiBinding.Proofs.TypeHint

/-!
Hints where an operation streams. Of all that a shape contains only the outermost array can be handed
over item by item, and what else the hint of the shape says stays as it is.
-/

namespace ApiBinding.TypeHint

/-- The hints of what a hint contains. -/
def arguments : TypeHint → List TypeHint
  | applied _ arguments _ => arguments
  | _ => []

/-- Whether a shape is an array that the operation hands over item by item in its place. -/
def Context.Streams (context : Context) (shape : Shape) : Prop :=
  (∃ element nullable, shape = .array element nullable true) ∧
    (context.usage = .response ∧ context.streamsResult = true ∨
      context.usage = .body ∧ context.streamsBody = true)

/-- Whether a hint is another one, but for a list at its root where the shape is streamed: items of a
result are read from a stream, those of a body come from a producer. -/
inductive Restreamed (context : Context) (shape : Shape) : TypeHint → TypeHint → Prop
  | whole (plain : TypeHint) (h : ¬context.Streams shape) : Restreamed context shape plain plain
  | result (item : TypeHint) (nullable : Bool) (h : context.Streams shape)
      (usage : context.usage = .response) :
      Restreamed context shape (applied .list [item] nullable) (applied .stream [item] nullable)
  | body (item : TypeHint) (nullable : Bool) (h : context.Streams shape)
      (usage : context.usage = .body) :
      Restreamed context shape (applied .list [item] nullable) (applied .producer [item] nullable)

variable {context : Context} {shape : Shape} {plain hint : TypeHint}

theorem Restreamed.nullable_eq (h : Restreamed context shape plain hint) :
    hint.nullable = plain.nullable := by
  cases h with
  | whole => rfl
  | result => rfl
  | body => rfl

theorem Restreamed.arguments_eq (h : Restreamed context shape plain hint) :
    hint.arguments = plain.arguments := by
  cases h with
  | whole => rfl
  | result => rfl
  | body => rfl

@[simp] theorem Context.inner_inner (context : Context) : context.inner.inner = context.inner := rfl

theorem Context.streams_array_iff {element : Shape} {nullable streamable : Bool} :
    context.Streams (.array element nullable streamable) ↔ streamable = true ∧
      (context.usage = .response ∧ context.streamsResult = true ∨
        context.usage = .body ∧ context.streamsBody = true) := by
  simp [Context.Streams]

/-- Where nothing is streamed an array is a list. -/
theorem Context.arrayContainer_inner (context : Context) (streamable : Bool) :
    context.inner.arrayContainer streamable = .list := by
  simp [Context.arrayContainer, Context.inner]

theorem restreamed_array (element : Shape) (nullable streamable : Bool) :
    Restreamed context (.array element nullable streamable)
      (applied .list [ofShape context.inner element] nullable)
      (applied (context.arrayContainer streamable) [ofShape context.inner element] nullable) := by
  by_cases h : context.Streams (.array element nullable streamable)
  · obtain ⟨may, ⟨usage, on⟩ | ⟨usage, on⟩⟩ := Context.streams_array_iff.mp h
    · have container : context.arrayContainer streamable = .stream := by
        simp [Context.arrayContainer, may, usage, on]
      rw [container]
      exact .result _ _ h usage
    · have container : context.arrayContainer streamable = .producer := by
        simp [Context.arrayContainer, may, usage, on]
      rw [container]
      exact .body _ _ h usage
  · have container : context.arrayContainer streamable = .list := by
      rw [Context.streams_array_iff, not_and, not_or, not_and, not_and] at h
      cases may : streamable with
      | false => simp [Context.arrayContainer]
      | true =>
        obtain ⟨result, body⟩ := h may
        simp only [Context.arrayContainer, Bool.true_and, Bool.and_eq_true, decide_eq_true_eq]
        rw [if_neg fun both => result both.1 both.2, if_neg fun both => body both.1 both.2]
    rw [container]
    exact .whole _ h

theorem restreamed_ofShape (context : Context) (shape : Shape) :
    Restreamed context shape (ofShape context.inner shape) (ofShape context shape) := by
  have other (h : ∀ element nullable, shape ≠ .array element nullable true)
      (same : ofShape context.inner shape = ofShape context shape) :
      Restreamed context shape (ofShape context.inner shape) (ofShape context shape) := by
    rw [same]
    refine .whole _ fun streams => ?_
    obtain ⟨⟨element, nullable, array⟩, _⟩ := streams
    exact h element nullable array
  cases shape with
  | array element nullable streamable =>
    rw [ofShape, ofShape, Context.arrayContainer_inner, Context.inner_inner]
    exact restreamed_array element nullable streamable
  | primitive kind nullable => exact other (by simp) rfl
  | unknown description nullable => exact other (by simp) rfl
  | enumeration label members nullable => exact other (by simp) rfl
  | generic label argument nullable =>
    exact other (by simp) (by simp only [ofShape, Context.inner_inner])
  | object label fields additional nullable =>
    refine other (by simp) ?_
    cases additional with
    | none => simp only [ofShape]
    | some value => simp only [ofShape, Context.inner_inner]

/-- Nothing inside of the hint of a shape is handed over item by item. -/
theorem isItemwise_of_arguments (context : Context) (shape : Shape) :
    ∀ part ∈ (ofShape context shape).arguments, ∀ container ∈ part.containers,
      isItemwise container = false := by
  rw [(restreamed_ofShape context shape).arguments_eq]
  have inside : ∀ container ∈ (ofShape context.inner shape).containers,
      isItemwise container = false := isItemwise_of_inner context
  intro part member container among
  have within {hints : List TypeHint} (h : part ∈ hints) : container ∈ allContainers hints := by
    induction hints with
    | nil => cases h
    | cons hint hints ih =>
      rw [allContainers, List.mem_append]
      rcases List.mem_cons.mp h with rfl | h
      · exact .inl among
      · exact .inr (ih h)
  cases hint : ofShape context.inner shape with
  | any nullable => simp [hint, arguments] at member
  | named name isModel nullable => simp [hint, arguments] at member
  | literal members nullable => simp [hint, arguments] at member
  | applied outer parts nullable =>
    rw [hint] at member inside
    exact inside container (List.mem_cons_of_mem outer (within member))

/-- The hint of a shape is the one without streaming, but for the list at its root if the shape is an
array that is streamed, with null as before. No other container is a stream or a producer. Hints come
out with streaming for the same shapes as without: for all but those with enumerations whose members
cannot be told apart. -/
theorem streamed_at_root (context : Context) (shape : Shape) :
    (∃ plain hint, ofShape? { usage := context.usage } shape = .ok plain ∧
      ofShape? context shape = .ok hint ∧ Restreamed context shape plain hint ∧
      hint.nullable = plain.nullable ∧
      (∀ container ∈ plain.containers, isItemwise container = false) ∧
      ∀ part ∈ hint.arguments, ∀ container ∈ part.containers, isItemwise container = false) ∨
    ((∃ label members nullable, shape.Reaches (.enumeration label members nullable) ∧
        members.all Value.isFixed = false) ∧
      ∀ streaming : Context, ofShape? streaming shape = .error (.misuse .wrongKind)) := by
  cases spelled : canSpell shape with
  | true =>
    have comes (context : Context) : ofShape? context shape = .ok (ofShape context shape) := by
      rw [ofShape?, if_pos spelled]
    have root := restreamed_ofShape context shape
    exact .inl ⟨_, _, comes _, comes _, root, root.nullable_eq, isItemwise_of_inner context,
      isItemwise_of_arguments context shape⟩
  | false =>
    refine .inr ⟨?_, fun streaming => by simp [ofShape?, spelled]⟩
    by_contra fixed
    have spells : canSpell shape = true := by
      apply canSpell_of_members
      intro label members nullable inside
      by_contra loose
      exact fixed ⟨label, members, nullable, inside, Bool.eq_false_iff.mpr loose⟩
    rw [spells] at spelled
    cases spelled

-- Of two arrays, one in the other, only the outer one is read item by item.
example : ofShape? { usage := .response, streamsResult := true }
    (.array (.array (.primitive .string false) true true) false true) =
      .ok (.applied .stream [.applied .list [.named "str" false false] true] false) := rfl

end ApiBinding.TypeHint
