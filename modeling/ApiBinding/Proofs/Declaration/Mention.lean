import ApiBinding.Proofs.Declaration.Coverage
import ApiBinding.Proofs.TypeHint

/-!
The mentions of names in shapes, in the order in which a walk over the shapes would come to them,
and what mentions of one name have in common.
-/

namespace ApiBinding

open Identifier (ofRaw)

namespace Shape

variable {shape mention : Shape} {source : String}

/-- The named shapes that a shape reaches, once for each time one is met. A shape comes before those
inside of it. -/
def mentions (shape : Shape) : List Shape :=
  (if shape.declaredName?.isSome then [shape] else []) ++
    shape.parts.attach.flatMap fun part => part.1.mentions
termination_by sizeOf shape
decreasing_by exact sizeOf_lt_of_mem_parts part.2

theorem mentions_eq (shape : Shape) :
    shape.mentions = (if shape.declaredName?.isSome then [shape] else []) ++
      shape.parts.flatMap mentions := by
  rw [mentions]
  simp [List.flatMap_subtype]

theorem mentions_unnamed (unnamed : shape.declaredName? = none) :
    shape.mentions = shape.parts.flatMap mentions := by
  rw [mentions_eq, unnamed]
  rfl

theorem mentions_named (named : shape.declaredName? = some source) :
    shape.mentions = shape :: shape.parts.flatMap mentions := by
  rw [mentions_eq, named]
  rfl

theorem reaches_iff :
    shape.Reaches mention ↔ shape = mention ∨ ∃ part ∈ shape.parts, part.Reaches mention :=
  Relation.ReflTransGen.cases_head_iff

theorem mem_mentions :
    mention ∈ shape.mentions ↔ shape.Reaches mention ∧ mention.declaredName?.isSome := by
  induction shape using parts_induction with
  | step shape ih =>
  have inside : mention ∈ shape.parts.flatMap mentions ↔
      (∃ part ∈ shape.parts, part.Reaches mention) ∧ mention.declaredName?.isSome := by
    rw [List.mem_flatMap, exists_and_right.symm]
    refine exists_congr fun part => ?_
    rw [and_assoc]
    exact and_congr_right fun hp => ih part hp
  rw [reaches_iff, or_and_right, ← inside]
  cases name : shape.declaredName? with
  | none =>
    have other : ¬(shape = mention ∧ mention.declaredName?.isSome) := by
      rintro ⟨rfl, some⟩
      simp [name] at some
    rw [mentions_unnamed name, or_iff_right other]
  | some source =>
    have here : shape = mention ∧ mention.declaredName?.isSome ↔ mention = shape := by
      constructor
      · exact fun h => h.1.symm
      · rintro rfl
        exact ⟨rfl, by rw [name]; rfl⟩
    rw [mentions_named name, List.mem_cons, here]

/-- Whether a shape is an object of which nothing but its name is told. -/
def IsStub (shape : Shape) : Prop := ∃ name nullable, shape = .object name [] none nullable

def isEnumeration : Shape → Bool
  | enumeration .. => true
  | _ => false

@[simp] theorem parts_orNull (shape : Shape) : shape.orNull.parts = shape.parts := by
  cases shape <;> rfl

@[simp] theorem sizeOf_orNull (shape : Shape) : sizeOf shape.orNull = sizeOf shape := by
  cases shape <;> simp [orNull]

theorem IsStub.fields_eq_nil (stub : shape.IsStub) : shape.fields = [] := by
  obtain ⟨name, nullable, rfl⟩ := stub
  rfl

theorem IsStub.parts_eq_nil (stub : shape.IsStub) : shape.parts = [] := by
  obtain ⟨name, nullable, rfl⟩ := stub
  rfl

/-- What a mention without fields tells of a name is the shape of its values, if it is of an object
and no stub. -/
theorem exists_additional (named : shape.declaredName? = some source)
    (whole : ¬shape.IsStub) (empty : shape.fields = []) (object : shape.isEnumeration = false) :
    ∃ name value nullable, shape = .object name [] (some value) nullable := by
  cases shape with
  | primitive kind nullable => cases named
  | array element nullable streamable => cases named
  | generic name argument nullable => cases named
  | unknown description nullable => cases named
  | enumeration name members nullable => cases object
  | object name fields additional nullable =>
    obtain rfl : fields = [] := empty
    cases additional with
    | none => exact absurd ⟨name, nullable, rfl⟩ whole
    | some value => exact ⟨name, value, nullable, rfl⟩

/-- A shape of which the hint tells nothing has nothing to tell. -/
theorem of_hint_any (h : TypeHint.ofShape .response shape = .any false) :
    shape.mentions = [] ∧ TypeHint.canSpell shape = true := by
  cases shape with
  | primitive kind nullable => exact ⟨mentions_unnamed rfl, rfl⟩
  | unknown description nullable => exact ⟨mentions_unnamed rfl, rfl⟩
  | array element nullable streamable => simp [TypeHint.ofShape] at h
  | generic name argument nullable => simp [TypeHint.ofShape] at h
  | enumeration name members nullable =>
    cases label : label? name with
    | some source => simp [TypeHint.ofShape, label] at h
    | none =>
      have empty : members = [] := by
        by_contra listed
        simp [TypeHint.ofShape, label, listed] at h
      exact ⟨mentions_unnamed label, by simp [TypeHint.canSpell, empty]⟩
  | object name fields additional nullable =>
    cases label : label? name with
    | none => cases additional <;> simp [TypeHint.ofShape, label] at h
    | some source => cases additional <;> simp [TypeHint.ofShape, label] at h

end Shape

namespace Declaration

variable {source : String}

@[simp] theorem ofMeeting_orNull (source : String) (shape : Shape) :
    ofMeeting source shape.orNull = ofMeeting source shape := by
  cases shape <;> rfl

/-- The declaration of a name of which nothing else is told. -/
def opaqueOf (source : String) : Declaration :=
  { name := ofRaw .type source, source, body := .synonym (.applied .mapping [.any false] false) }

theorem ofMeeting_stub {stub : Shape} (h : stub.IsStub) :
    ofMeeting source stub = .ok (opaqueOf source) := by
  obtain ⟨name, nullable, rfl⟩ := h
  rfl

/-- A mention gives what a stub gives if it lists no fields and its values may be anything. -/
theorem of_ofMeeting_opaqueOf {shape : Shape} (made : ofMeeting source shape = .ok (opaqueOf source)) :
    shape.fields = [] ∧
      ∀ value, shape.additional = some value → TypeHint.ofShape .response value = .any false := by
  obtain ⟨_, _, described⟩ := ofMeeting_eq_ok made
  generalize body : (opaqueOf source).body = b at described
  cases described with
  | enumeration => simp [opaqueOf] at body
  | record listed => simp [opaqueOf] at body
  | synonym empty =>
    refine ⟨empty, fun value told => ?_⟩
    rw [told] at body
    simpa [opaqueOf, eq_comm] using body

theorem ofMeeting_of_hint_any {name : Option String} {value : Shape} {nullable : Bool}
    (h : TypeHint.ofShape .response value = .any false) :
    ofMeeting source (.object name [] (some value) nullable) = .ok (opaqueOf source) := by
  have spelled : TypeHint.ofShape? .response value = .ok (.any false) := by
    rw [ofShape?_eq_ok, h]
    exact ⟨(Shape.of_hint_any h).2, rfl⟩
  show ofObject (ofRaw .type source) source [] (some value) = _
  simp only [ofObject, List.isEmpty_nil, if_true, spelled, ok_bind]
  rfl

theorem mentions_of_ofMeeting_opaqueOf {shape : Shape} (named : shape.declaredName? = some source)
    (made : ofMeeting source shape = .ok (opaqueOf source)) :
    shape.parts.flatMap Shape.mentions = [] := by
  obtain ⟨empty, values⟩ := of_ofMeeting_opaqueOf made
  rw [Shape.parts_of_declaredName? named, empty]
  cases told : shape.additional with
  | none => rfl
  | some value => simp [(Shape.of_hint_any (values value told)).1]

/-- A named shape has a declaration if all enumerations inside of it list fixed members. -/
theorem exists_ofMeeting (source : String) {shape : Shape}
    (fixed : ∀ name members nullable, shape.Reaches (.enumeration name members nullable) →
      members.all Value.isFixed = true) : ∃ d, ofMeeting source shape = .ok d := by
  have spelled {part : Shape} (hp : part ∈ shape.parts) :
      TypeHint.ofShape? .response part = .ok (TypeHint.ofShape .response part) := by
    rw [ofShape?_eq_ok]
    refine ⟨TypeHint.canSpell_of_members fun name members nullable inside => ?_, rfl⟩
    exact fixed name members nullable (Relation.ReflTransGen.head hp inside)
  cases shape with
  | primitive kind nullable => exact ⟨_, rfl⟩
  | array element nullable streamable => exact ⟨_, rfl⟩
  | generic name argument nullable => exact ⟨_, rfl⟩
  | unknown description nullable => exact ⟨_, rfl⟩
  | enumeration name members nullable =>
    have all := fixed name members nullable (Shape.Reaches.refl _)
    exact ⟨_, if_pos all⟩
  | object name fields additional nullable =>
    show ∃ d, ofObject (ofRaw .type source) source fields additional = .ok d
    unfold ofObject
    split
    next =>
      cases additional with
      | none => exact ⟨_, rfl⟩
      | some value =>
        have part : value ∈ (Shape.object name fields (some value) nullable).parts := by
          simp [Shape.parts, Shape.additional]
        simp only [spelled part, ok_bind]
        exact ⟨_, rfl⟩
    next =>
      have hinted : hintedFields fields = .ok (recordFields fields) := by
        apply mapM_eq_ok.mpr
        rw [recordFields, List.forall₂_map_right_iff, List.forall₂_same]
        intro field hf
        have part : field.type ∈ (Shape.object name fields additional nullable).parts :=
          List.mem_append_left _ (List.mem_map_of_mem hf)
        rw [spelled part]
        rfl
      simp only [hinted, ok_bind]
      exact ⟨_, rfl⟩

end Declaration

end ApiBinding
