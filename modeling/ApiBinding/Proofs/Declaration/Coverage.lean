import ApiBinding.Proofs.Declaration.Walk

/-!
What the walk over shapes has covered at any point: each name met so far has one declaration, made
from a meeting whose parts have been met or are still on the agenda. Where all meetings of a name
agree, the walk that ends has met every shape there is.
-/

namespace ApiBinding.Declaration

open Identifier (ofRaw)

/-- Where the walk stands among the shapes of which `all` holds. Of the shapes on its way some have
been `met` and the others are on the agenda. -/
structure Covered (all : Shape → Prop) (met agenda : List Shape) (found : List Declaration) :
    Prop where
  within : ∀ shape, shape ∈ met ∨ shape ∈ agenda → all shape
  distinct : (found.map name).Nodup
  declared : ∀ shape ∈ met, ∀ source, shape.declaredName? = some source →
    ∃ d ∈ found, d.name = ofRaw .type source ∧ d.source = source ∧
      (shape.fields ≠ [] → d.hasFields = true)
  unnamed : ∀ shape ∈ met, shape.declaredName? = none →
    ∀ part ∈ shape.parts, part ∈ met ∨ part ∈ agenda
  origin : ∀ d ∈ found, ∃ shape ∈ met, shape.declaredName? = some d.source ∧
    d.name = ofRaw .type d.source ∧ Describes shape d.body ∧
      ∀ part ∈ shape.parts, part ∈ met ∨ part ∈ agenda
  closed : (∀ first second name, all first → all second → first.declaredName? = some name →
      second.declaredName? = some name → first.Agrees second) →
    ∀ shape ∈ met, ∀ part ∈ shape.parts, part ∈ met ∨ part ∈ agenda

namespace Covered

variable {all : Shape → Prop} {met agenda : List Shape} {found : List Declaration} {shape : Shape}

theorem initial (roots : List Shape) (within : ∀ shape ∈ roots, all shape) :
    Covered all [] roots [] where
  within shape h := within shape (by simpa using h)
  distinct := by simp
  declared := by simp
  unnamed := by simp
  origin := by simp
  closed := by simp

/-- A shape on its way stays on it when the next shape is met, whatever comes onto the agenda. -/
private theorem onward {part : Shape} (front : List Shape)
    (h : part ∈ met ∨ part ∈ shape :: agenda) :
    part ∈ shape :: met ∨ part ∈ front ++ agenda := by
  rcases h with h | h
  · exact .inl (List.mem_cons_of_mem _ h)
  · rcases List.mem_cons.mp h with rfl | h
    · exact .inl List.mem_cons_self
    · exact .inr (List.mem_append_right _ h)

private theorem onward_within (closed : ∀ shape, all shape → ∀ part ∈ shape.parts, all part)
    (c : Covered all met (shape :: agenda) found) :
    ∀ s, s ∈ shape :: met ∨ s ∈ shape.parts ++ agenda → all s := by
  have here : all shape := c.within shape (.inr List.mem_cons_self)
  rintro s (h | h)
  · rcases List.mem_cons.mp h with rfl | h
    · exact here
    · exact c.within s (.inl h)
  · rcases List.mem_append.mp h with h | h
    · exact closed shape here s h
    · exact c.within s (.inr (List.mem_cons_of_mem _ h))

theorem meet_unnamed (closed : ∀ shape, all shape → ∀ part ∈ shape.parts, all part)
    (c : Covered all met (shape :: agenda) found) (name : shape.declaredName? = none) :
    Covered all (shape :: met) (shape.parts ++ agenda) found where
  within := onward_within closed c
  distinct := c.distinct
  declared s hs source hn := by
    rcases List.mem_cons.mp hs with rfl | hs
    · simp [name] at hn
    · exact c.declared s hs source hn
  unnamed s hs hn part hp := by
    rcases List.mem_cons.mp hs with rfl | hs
    · exact .inr (List.mem_append_left _ hp)
    · exact onward _ (c.unnamed s hs hn part hp)
  origin d hd := by
    obtain ⟨s, hs, hn, hname, hbody, hparts⟩ := c.origin d hd
    exact ⟨s, List.mem_cons_of_mem _ hs, hn, hname, hbody, fun part hp => onward _ (hparts part hp)⟩
  closed agree s hs part hp := by
    rcases List.mem_cons.mp hs with rfl | hs
    · exact .inr (List.mem_append_left _ hp)
    · exact onward _ (c.closed agree s hs part hp)

/-- A meeting that adds nothing has the parts of the meeting that the declaration was made from, if
all meetings of the name agree. -/
theorem meet_known (c : Covered all met (shape :: agenda) found) {source : String} {d : Declaration}
    (name : shape.declaredName? = some source) (hd : d ∈ found) (hname : d.name = ofRaw .type source)
    (same : d.source = source) (known : d.hasFields = true ∨ shape.fields = []) :
    Covered all (shape :: met) agenda found where
  within s h := by
    rcases h with h | h
    · rcases List.mem_cons.mp h with rfl | h
      · exact c.within s (.inr List.mem_cons_self)
      · exact c.within s (.inl h)
    · exact c.within s (.inr (List.mem_cons_of_mem _ h))
  distinct := c.distinct
  declared s hs source' hn := by
    rcases List.mem_cons.mp hs with rfl | hs
    · obtain rfl : source = source' := by simpa [name] using hn
      exact ⟨d, hd, hname, same, fun hf => known.resolve_right hf⟩
    · exact c.declared s hs source' hn
  unnamed s hs hn part hp := by
    rcases List.mem_cons.mp hs with rfl | hs
    · simp [name] at hn
    · exact onward [] (c.unnamed s hs hn part hp)
  origin e he := by
    obtain ⟨s, hs, hn, hname, hbody, hparts⟩ := c.origin e he
    exact ⟨s, List.mem_cons_of_mem _ hs, hn, hname, hbody,
      fun part hp => onward [] (hparts part hp)⟩
  closed agree s hs part hp := by
    rcases List.mem_cons.mp hs with rfl | hs
    -- Its parts are passed over: they are those of the meeting declared before, or there are none.
    · obtain ⟨first, hfirst, hn, _, hbody, hparts⟩ := c.origin d hd
      rw [same] at hn
      have agrees := agree s first source (c.within s (.inr List.mem_cons_self))
        (c.within first (.inl hfirst)) name hn
      rcases agrees with ⟨hf, ha⟩ | ⟨bare, _⟩ | ⟨bare, listed⟩
      · have : s.parts = first.parts := by
          rw [Shape.parts_of_declaredName? name, Shape.parts_of_declaredName? hn, hf, ha]
        exact onward [] (hparts part (this ▸ hp))
      · simp [bare.parts_eq_nil name] at hp
      · have := hbody.hasFields_iff.mp (known.resolve_right listed)
        exact absurd bare.1 this
    · exact onward [] (c.closed agree s hs part hp)

theorem meet_declared (closed : ∀ shape, all shape → ∀ part ∈ shape.parts, all part)
    (c : Covered all met (shape :: agenda) found) {source : String} {d : Declaration}
    (name : shape.declaredName? = some source)
    (fresh : ∀ e, find? found (ofRaw .type source) = some e →
      e.source = source ∧ e.hasFields = false ∧ shape.fields ≠ [])
    (made : ofMeeting source shape = .ok d) :
    Covered all (shape :: met) (shape.parts ++ agenda) (put d found) := by
  obtain ⟨hname, hsource, hbody⟩ := ofMeeting_eq_ok made
  have replaced : ∀ e ∈ found, e.name = d.name → e.source = source ∧ e.hasFields = false := by
    intro e he hen
    have := fresh e (by rw [← hname, ← hen]; exact find?_name c.distinct he)
    exact ⟨this.1, this.2.1⟩
  refine ⟨onward_within closed c, ?_, ?_, ?_, ?_, ?_⟩
  · rw [names_put]
    split
    next => exact c.distinct
    next absent => exact List.nodup_append.mpr ⟨c.distinct, by simp, by simpa using absent⟩
  · intro s hs source' hn
    rcases List.mem_cons.mp hs with rfl | hs
    · obtain rfl : source = source' := by simpa [name] using hn
      exact ⟨d, mem_put_self d found, hname, hsource, hbody.hasFields_iff.mpr⟩
    · obtain ⟨e, he, hen, hes, hef⟩ := c.declared s hs source' hn
      by_cases h : e.name = d.name
      · obtain ⟨hsame, hlacks⟩ := replaced e he h
        refine ⟨d, mem_put_self d found, h ▸ hen, by rw [hsource, ← hsame, hes], fun hf => ?_⟩
        simp [hef hf] at hlacks
      · exact ⟨e, mem_put_of_mem he h, hen, hes, hef⟩
  · intro s hs hn part hp
    rcases List.mem_cons.mp hs with rfl | hs
    · exact .inr (List.mem_append_left _ hp)
    · exact onward _ (c.unnamed s hs hn part hp)
  · intro e he
    rcases mem_of_mem_put he with rfl | he
    · exact ⟨shape, List.mem_cons_self, hsource ▸ name, hsource ▸ hname, hbody,
        fun part hp => .inr (List.mem_append_left _ hp)⟩
    · obtain ⟨s, hs, hn, hname, hbody, hparts⟩ := c.origin e he
      exact ⟨s, List.mem_cons_of_mem _ hs, hn, hname, hbody,
        fun part hp => onward _ (hparts part hp)⟩
  · intro agree s hs part hp
    rcases List.mem_cons.mp hs with rfl | hs
    · exact .inr (List.mem_append_left _ hp)
    · exact onward _ (c.closed agree s hs part hp)

end Covered

/-- A walk that ends has met all that was on its agenda. -/
theorem Walk.covered {all : Shape → Prop}
    (closed : ∀ shape, all shape → ∀ part ∈ shape.parts, all part) {agenda : List Shape}
    {found result : List Declaration} (walk : Walk found agenda (.ok result)) (met : List Shape)
    (c : Covered all met agenda found) :
    ∃ met', (∀ shape, shape ∈ met ∨ shape ∈ agenda → shape ∈ met') ∧ Covered all met' [] result := by
  have later {met met' front : List Shape} {shape : Shape} {agenda : List Shape}
      (h : ∀ s, s ∈ shape :: met ∨ s ∈ front ++ agenda → s ∈ met') :
      ∀ s, s ∈ met ∨ s ∈ shape :: agenda → s ∈ met' := fun s hs =>
    h s (Covered.onward front hs)
  generalize hout : Except.ok result = out at walk
  induction walk generalizing met with
  | done found =>
    cases hout
    exact ⟨met, by simp, c⟩
  | unnamed name rest ih =>
    obtain ⟨met', hmet, c'⟩ := ih _ (c.meet_unnamed closed name) hout
    exact ⟨met', later hmet, c'⟩
  | clash => cases hout
  | known name existing same known rest ih =>
    obtain ⟨hd, hname⟩ := mem_of_find? existing
    obtain ⟨met', hmet, c'⟩ := ih _ (c.meet_known name hd hname same known) hout
    exact ⟨met', fun s hs => hmet s (Covered.onward [] hs), c'⟩
  | misfit => cases hout
  | declared name fresh made rest ih =>
    obtain ⟨met', hmet, c'⟩ := ih _ (c.meet_declared closed name fresh made) hout
    exact ⟨met', later hmet, c'⟩

/-- Whether two of the shapes, named apart, have the same identifier. -/
def Clash (all : Shape → Prop) (first second : String) : Prop :=
  first ≠ second ∧ ofRaw .type first = ofRaw .type second ∧
    (∃ shape, all shape ∧ shape.declaredName? = some first) ∧
    ∃ shape, all shape ∧ shape.declaredName? = some second

/-- A walk fails at a shape that cannot be declared or at a name that clashes with one before. -/
theorem Walk.failure {all : Shape → Prop}
    (closed : ∀ shape, all shape → ∀ part ∈ shape.parts, all part) {agenda : List Shape}
    {found : List Declaration} {failure : Failure} (walk : Walk found agenda (.error failure))
    (met : List Shape) (c : Covered all met agenda found) :
    (∃ shape source, all shape ∧ shape.declaredName? = some source ∧
        ofMeeting source shape = .error failure) ∨
      ∃ first second, Clash all first second ∧
        failure = .collision .types (ofRaw .type second) first second := by
  generalize hout : Except.error failure = out at walk
  induction walk generalizing met with
  | done found => cases hout
  | unnamed name rest ih => exact ih _ (c.meet_unnamed closed name) hout
  | @clash found shape agenda source d name existing differs =>
    cases hout
    obtain ⟨hd, hname⟩ := mem_of_find? existing
    obtain ⟨first, hfirst, hn, hid, _⟩ := c.origin d hd
    refine .inr ⟨d.source, source, ⟨differs, hid.symm.trans hname, ?_, ?_⟩, rfl⟩
    · exact ⟨first, c.within first (.inl hfirst), hn⟩
    · exact ⟨shape, c.within shape (.inr List.mem_cons_self), name⟩
  | known name existing same known rest ih =>
    obtain ⟨hd, hname⟩ := mem_of_find? existing
    exact ih _ (c.meet_known name hd hname same known) hout
  | @misfit found shape agenda source failure name refused =>
    cases hout
    exact .inl ⟨shape, source, c.within shape (.inr List.mem_cons_self), name, refused⟩
  | declared name fresh made rest ih => exact ih _ (c.meet_declared closed name fresh made) hout

theorem covered_of_collected {operation : Operation} {found : List Declaration}
    (h : collected operation = .ok found) :
    ∃ met, (∀ shape ∈ operation.shapes, shape ∈ met) ∧ Covered operation.Reaches met [] found := by
  have walk := walk_collected operation
  rw [h] at walk
  have start : Covered operation.Reaches [] operation.shapes [] :=
    Covered.initial operation.shapes fun shape hs => ⟨shape, hs, Shape.Reaches.refl shape⟩
  obtain ⟨met, hmet, c⟩ := walk.covered (fun _ hs _ hp => hs.part hp) [] start
  exact ⟨met, fun shape hs => hmet shape (.inr hs), c⟩

/-- Whether a declaration was made from a shape of its name, of which something holds. -/
def MadeFrom (all : Shape → Prop) (d : Declaration) : Prop :=
  ∃ shape, all shape ∧ shape.declaredName? = some d.source ∧ ofMeeting d.source shape = .ok d

theorem Walk.made {all : Shape → Prop}
    (closed : ∀ shape, all shape → ∀ part ∈ shape.parts, all part) {agenda : List Shape}
    {found result : List Declaration} (walk : Walk found agenda (.ok result))
    (within : ∀ shape ∈ agenda, all shape) (made : ∀ d ∈ found, MadeFrom all d) :
    ∀ d ∈ result, MadeFrom all d := by
  have onward {shape : Shape} {agenda : List Shape} (within : ∀ s ∈ shape :: agenda, all s) :
      all shape ∧ (∀ s ∈ agenda, all s) ∧ ∀ s ∈ shape.parts ++ agenda, all s := by
    obtain ⟨here, rest⟩ := List.forall_mem_cons.mp within
    exact ⟨here, rest, List.forall_mem_append.mpr ⟨closed shape here, rest⟩⟩
  generalize hout : Except.ok result = out at walk
  induction walk with
  | done found =>
    cases hout
    exact made
  | unnamed name rest ih => exact ih (onward within).2.2 made hout
  | clash => cases hout
  | known name existing same known rest ih => exact ih (onward within).2.1 made hout
  | misfit => cases hout
  | @declared found shape agenda out source d name fresh meeting rest ih =>
    refine ih (onward within).2.2 (fun e he => ?_) hout
    rcases mem_of_mem_put he with rfl | he
    · obtain ⟨_, rfl, _⟩ := ofMeeting_eq_ok meeting
      exact ⟨shape, (onward within).1, name, meeting⟩
    · exact made e he

theorem made_of_collected {operation : Operation} {found : List Declaration}
    (h : collected operation = .ok found) : ∀ d ∈ found, MadeFrom operation.Reaches d := by
  have walk := walk_collected operation
  rw [h] at walk
  refine walk.made (fun _ hs _ hp => hs.part hp) (fun shape hs => ?_) (by simp)
  exact ⟨shape, hs, Shape.Reaches.refl shape⟩

/-- Where all meetings of a name agree, a walk to its end has met every shape. -/
theorem Covered.mem_of_reaches {operation : Operation} {met : List Shape}
    {found : List Declaration} (c : Covered operation.Reaches met [] found)
    (roots : ∀ shape ∈ operation.shapes, shape ∈ met) (consistent : operation.IsConsistent)
    {shape : Shape} (h : operation.Reaches shape) : shape ∈ met := by
  obtain ⟨root, hroot, h⟩ := h
  induction h with
  | refl => exact roots root hroot
  | tail _ hp ih => simpa using c.closed consistent _ ih _ hp

theorem Covered.source_unique {all : Shape → Prop} {met : List Shape} {found : List Declaration}
    (c : Covered all met [] found) {first second : Shape} (hf : first ∈ met) (hs : second ∈ met)
    {a b : String} (ha : first.declaredName? = some a) (hb : second.declaredName? = some b)
    (same : ofRaw .type a = ofRaw .type b) : a = b := by
  obtain ⟨d, hd, hdn, hds, _⟩ := c.declared first hf a ha
  obtain ⟨e, he, hen, hes, _⟩ := c.declared second hs b hb
  have hde := find?_name c.distinct hd
  rw [hdn, same, ← hen, find?_name c.distinct he] at hde
  rw [← hds, ← hes, Option.some.inj hde]

theorem not_clash_of_collected {operation : Operation} {found : List Declaration}
    (h : collected operation = .ok found) (consistent : operation.IsConsistent)
    (first second : String) : ¬Clash operation.Reaches first second := by
  rintro ⟨differs, same, ⟨s, hs, ha⟩, t, ht, hb⟩
  obtain ⟨met, roots, c⟩ := covered_of_collected h
  exact differs (c.source_unique (c.mem_of_reaches roots consistent hs)
    (c.mem_of_reaches roots consistent ht) ha hb same)

theorem collected_failure {operation : Operation} {failure : Failure}
    (h : collected operation = .error failure) :
    (∃ shape source, operation.Reaches shape ∧ shape.declaredName? = some source ∧
        ofMeeting source shape = .error failure) ∨
      ∃ first second, Clash operation.Reaches first second ∧
        failure = .collision .types (ofRaw .type second) first second := by
  have walk := walk_collected operation
  rw [h] at walk
  exact walk.failure (fun _ hs _ hp => hs.part hp) [] (Covered.initial operation.shapes
    fun shape hs => ⟨shape, hs, Shape.Reaches.refl shape⟩)

end ApiBinding.Declaration
