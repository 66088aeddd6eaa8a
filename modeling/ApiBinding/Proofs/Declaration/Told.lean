import ApiBinding.Proofs.Declaration.Mention

/-!
What the declarations found on a walk tell of the mentions that it is through with. The walk passes
over the parts of a mention that adds nothing, and what comes out is the same as if it had passed
over none, unless a declaration without fields withholds what a later mention tells.
-/

namespace ApiBinding.Declaration

open Identifier (ofRaw)
open Entries (firsts)

/-- Whether the mentions of a name tell the same of it, apart from stubs, and no two names have one
identifier. -/
structure Unambiguous (mentions : List Shape) : Prop where
  same : ∀ first ∈ mentions, ∀ second ∈ mentions, first.declaredName? = second.declaredName? →
    ¬first.IsStub → ¬second.IsStub → first.orNull = second.orNull
  kind : ∀ first ∈ mentions, ∀ second ∈ mentions, first.declaredName? = second.declaredName? →
    first.isEnumeration = second.isEnumeration
  identifier : ∀ first ∈ mentions, ∀ second ∈ mentions, ∀ a b, first.declaredName? = some a →
    second.declaredName? = some b → ofRaw .type a = ofRaw .type b → a = b

/-- The first mention of a name. -/
def first? (mentions : List Shape) (source : String) : Option Shape :=
  mentions.find? (·.declaredName? == some source)

theorem first?_append (before after : List Shape) (source : String) :
    first? (before ++ after) source = (first? before source).or (first? after source) :=
  List.find?_append

theorem first?_eq_none {mentions : List Shape} {source : String} :
    first? mentions source = none ↔ ∀ mention ∈ mentions, mention.declaredName? ≠ some source := by
  simp [first?]

/-- Whether the declaration found for the name of a mention is the one that the mention gives, if it
tells anything. -/
def Settled (found : List Declaration) (mention : Shape) : Prop :=
  ∃ d ∈ found, mention.declaredName? = some d.source ∧
    (¬mention.IsStub → ofMeeting d.source mention = .ok d)

/-- Whether declarations have come from others by adding some, and by putting records in the place
of some that had no fields. -/
def Grows (found found' : List Declaration) : Prop :=
  ∀ d ∈ found, ∃ d' ∈ found', d'.source = d.source ∧
    (d' = d ∨ d.hasFields = false ∧ d'.hasFields = true)

theorem Grows.refl (found : List Declaration) : Grows found found :=
  fun d hd => ⟨d, hd, rfl, .inl rfl⟩

theorem Grows.trans {found found' found'' : List Declaration} (h : Grows found found')
    (h' : Grows found' found'') : Grows found found'' := by
  intro d hd
  obtain ⟨d', hd', source, same | ⟨lacked, has⟩⟩ := h d hd
  · subst same
    exact h' d' hd'
  · obtain ⟨d'', hd'', source', same | ⟨lacked', _⟩⟩ := h' d' hd'
    · subst same
      exact ⟨d'', hd'', source, .inr ⟨lacked, has⟩⟩
    · simp [has] at lacked'

theorem Walk.grows {found result : List Declaration} {agenda : List Shape}
    (walk : Walk found agenda (.ok result)) : Grows found result := by
  generalize hout : Except.ok result = out at walk
  induction walk with
  | done found =>
    cases hout
    exact Grows.refl _
  | unnamed name rest ih => exact ih hout
  | clash => cases hout
  | known name existing same known rest ih => exact ih hout
  | misfit => cases hout
  | @declared found shape agenda out source d name fresh made rest ih =>
    obtain ⟨hname, hsource, described⟩ := ofMeeting_eq_ok made
    refine Grows.trans ?_ (ih hout)
    intro e he
    rcases mem_put_or_find? (d := d) he with kept | replaced
    · exact ⟨e, kept, rfl, .inl rfl⟩
    · obtain ⟨same, lacks, listed⟩ := fresh e (hname ▸ replaced)
      exact ⟨d, mem_put_self d found, hsource.trans same.symm,
        .inr ⟨lacks, described.hasFields_iff.mpr listed⟩⟩

theorem grows_of_foldlM {shapes : List Shape} {found found' : List Declaration}
    (h : shapes.foldlM addShape found = .ok found') : Grows found found' := by
  have walk := walk_shapes shapes found
  rw [h] at walk
  exact walk.grows

/-- What the declarations found tell of the mentions that the walk is through with. The parts of
those that are pending have still to be met. -/
structure Told (done pending : List Shape) (found : List Declaration) : Prop where
  sources : found.map source = firsts id (done.filterMap Shape.declaredName?)
  settled : ∀ mention ∈ done, Settled found mention
  origin : ∀ d ∈ found, ∃ mention ∈ done, mention.declaredName? = some d.source ∧
    ofMeeting d.source mention = .ok d ∧
    (mention.fields = [] → first? done d.source = some mention) ∧
    (mention ∈ pending ∨ ∀ inner ∈ mention.parts.flatMap Shape.mentions, inner ∈ done)

namespace Told

variable {done pending : List Shape} {found : List Declaration} {shape : Shape} {source : String}

theorem initial : Told [] [] [] where
  sources := rfl
  settled := by simp
  origin := by simp

theorem mem_sources (told : Told done pending found) :
    source ∈ found.map Declaration.source ↔
      ∃ mention ∈ done, mention.declaredName? = some source := by
  rw [told.sources, ← List.map_id (firsts id _), Entries.key_mem_map_firsts, List.map_id,
    List.mem_filterMap]

theorem name_eq (told : Told done pending found) {d : Declaration} (hd : d ∈ found) :
    d.name = ofRaw .type d.source := by
  obtain ⟨mention, _, _, made, _⟩ := told.origin d hd
  exact (ofMeeting_eq_ok made).1

/-- Mentions that tell nothing new leave the declarations as they are. -/
theorem pass (told : Told done pending found) {new : List Shape}
    (settled : ∀ mention ∈ new, Settled found mention) : Told (done ++ new) pending found where
  sources := by
    have known : ∀ name ∈ new.filterMap Shape.declaredName?,
        name ∈ done.filterMap Shape.declaredName? := by
      intro name hname
      obtain ⟨mention, hm, named⟩ := List.mem_filterMap.mp hname
      obtain ⟨d, hd, named', _⟩ := settled mention hm
      obtain rfl := Option.some.inj (named.symm.trans named')
      exact List.mem_filterMap.mpr (told.mem_sources.mp (List.mem_map_of_mem hd))
    rw [told.sources, List.filterMap_append]
    generalize new.filterMap Shape.declaredName? = names at known
    induction names using List.reverseRecOn with
    | nil => rw [List.append_nil]
    | append_singleton names name ih =>
      have here := known name (by simp)
      rw [← List.append_assoc, Entries.firsts_concat, if_pos (List.mem_append_left _ here)]
      exact ih fun name hn => known name (List.mem_append_left _ hn)
  settled mention hm := by
    rcases List.mem_append.mp hm with hm | hm
    · exact told.settled mention hm
    · exact settled mention hm
  origin d hd := by
    obtain ⟨mention, hm, named, made, first, inside⟩ := told.origin d hd
    refine ⟨mention, List.mem_append_left _ hm, named, made, ?_, ?_⟩
    · intro empty
      rw [first?_append, first empty, Option.some_or]
    · exact inside.imp_right fun inside inner hi => List.mem_append_left _ (inside inner hi)

/-- A mention is no longer pending once its parts have been met. -/
theorem close (told : Told done (shape :: pending) found)
    (met : ∀ inner ∈ shape.parts.flatMap Shape.mentions, inner ∈ done) :
    Told done pending found where
  sources := told.sources
  settled := told.settled
  origin d hd := by
    obtain ⟨mention, hm, named, made, first, inside⟩ := told.origin d hd
    refine ⟨mention, hm, named, made, first, ?_⟩
    rcases inside with inside | inside
    · rcases List.mem_cons.mp inside with rfl | inside
      · exact .inr met
      · exact .inl inside
    · exact .inr inside

theorem sources_put {d : Declaration} {found : List Declaration}
    (same : ∀ e ∈ found, e.name = d.name ↔ e.source = d.source) :
    (put d found).map Declaration.source =
      if d.source ∈ found.map Declaration.source then found.map Declaration.source
      else found.map Declaration.source ++ [d.source] := by
  induction found with
  | nil => rfl
  | cons e found ih =>
    obtain ⟨here, same⟩ := List.forall_mem_cons.mp same
    by_cases h : e.source = d.source
    · simp [put, here.mpr h, h]
    · have other : e.name ≠ d.name := fun name => h (here.mp name)
      simp only [put, other, if_false, List.map_cons, ih same, List.mem_cons, Ne.symm h, false_or]
      split <;> simp

variable {ms : List Shape} {d : Declaration}

section

-- A mention of a named shape that is declared anew, or over a declaration without fields.
variable (told : Told done pending found) (named : shape.declaredName? = some source)
  (fresh : ∀ e, find? found (ofRaw .type source) = some e →
    e.source = source ∧ e.hasFields = false ∧ shape.fields ≠ [])
  (made : ofMeeting source shape = .ok d)

include told fresh in
theorem fields_ne_nil {mention : Shape} (hm : mention ∈ done)
    (named : mention.declaredName? = some source) : shape.fields ≠ [] := by
  obtain ⟨e, he, he_source⟩ := List.mem_map.mp (told.mem_sources.mpr ⟨mention, hm, named⟩)
  have taken : find? found (ofRaw .type source) ≠ none := by
    rw [find?, Ne, List.find?_eq_none]
    intro none
    exact none e he (by rw [told.name_eq he, he_source]; simp)
  obtain ⟨existing, here⟩ := Option.ne_none_iff_exists'.mp taken
  exact (fresh existing here).2.2

include told named made in
theorem name_eq_iff (unambiguous : Unambiguous ms) (earlier : ∀ mention ∈ done, mention ∈ ms)
    (here : shape ∈ ms) : ∀ e ∈ found, e.name = d.name ↔ e.source = d.source := by
  intro e he
  obtain ⟨hname, hsource, _⟩ := ofMeeting_eq_ok made
  rw [told.name_eq he, hname, hsource]
  obtain ⟨mention, hm, named', _⟩ := told.origin e he
  constructor
  · exact unambiguous.identifier mention (earlier mention hm) shape here _ _ named' named
  · exact congrArg (ofRaw .type)

include told named fresh made in
/-- What settled a mention still does, or it is replaced by a declaration from the same fields. -/
theorem settled_put (unambiguous : Unambiguous ms) (earlier : ∀ mention ∈ done, mention ∈ ms)
    (here : shape ∈ ms) {mention : Shape} (hm : mention ∈ done) :
    Settled (put d found) mention := by
  obtain ⟨hname, hsource, _⟩ := ofMeeting_eq_ok made
  obtain ⟨e, he, named', whole⟩ := told.settled mention hm
  rcases mem_put_or_find? (d := d) he with kept | replaced
  · exact ⟨e, kept, named', whole⟩
  · obtain ⟨e_source, lacks, listed⟩ := fresh e (hname ▸ replaced)
    have said : mention.declaredName? = shape.declaredName? := by
      rw [named', named, e_source]
    refine ⟨d, mem_put_self d found, by rw [said, named, hsource], fun telling => ?_⟩
    have whole : ¬shape.IsStub := fun stub => listed stub.fields_eq_nil
    have alike := unambiguous.same mention (earlier mention hm) shape here said telling whole
    rw [hsource, ← ofMeeting_orNull, alike, ofMeeting_orNull, made]

include told named fresh made in
theorem declare (unambiguous : Unambiguous ms) (within : ∀ mention ∈ done ++ [shape], mention ∈ ms) :
    Told (done ++ [shape]) (shape :: pending) (put d found) := by
  obtain ⟨hname, hsource, _⟩ := ofMeeting_eq_ok made
  have here : shape ∈ ms := within shape (by simp)
  have earlier : ∀ mention ∈ done, mention ∈ ms := fun mention hm =>
    within mention (List.mem_append_left _ hm)
  refine ⟨?_, fun mention hm => ?_, fun e he => ?_⟩
  · rw [sources_put (told.name_eq_iff named made unambiguous earlier here), List.filterMap_append,
      told.sources, List.filterMap_cons_some named, List.filterMap_nil, Entries.firsts_concat,
      ← told.sources, hsource]
    refine if_congr ?_ rfl rfl
    rw [told.mem_sources, List.mem_filterMap]
  · rcases List.mem_append.mp hm with hm | hm
    · exact told.settled_put named fresh made unambiguous earlier here hm
    · obtain rfl := List.mem_singleton.mp hm
      exact ⟨d, mem_put_self d found, hsource ▸ named, fun _ => hsource ▸ made⟩
  · rcases mem_of_mem_put he with rfl | he
    · refine ⟨shape, by simp, hsource ▸ named, hsource ▸ made, fun empty => ?_, .inl (by simp)⟩
      have absent : ∀ mention ∈ done, mention.declaredName? ≠ some source :=
        fun mention hm named' => told.fields_ne_nil fresh hm named' empty
      rw [first?_append, hsource, first?_eq_none.mpr absent, Option.none_or]
      simp [first?, named]
    · obtain ⟨mention, hm, named', made', first, inside⟩ := told.origin e he
      refine ⟨mention, List.mem_append_left _ hm, named', made', ?_, ?_⟩
      · intro empty
        rw [first?_append, first empty, Option.some_or]
      · exact inside.imp (List.mem_cons_of_mem _) fun inside inner hi =>
          List.mem_append_left _ (inside inner hi)

end

end Told

/-- Whether, on the way to the final declarations, none without fields withholds what a mention
without fields tells. -/
def Unspoilt (ms : List Shape) (final : List Declaration) : Prop :=
  ∀ done pending found mention d, Told done pending found → done ++ [mention] <+: ms →
    Grows found final → d ∈ found → mention.declaredName? = some d.source → d.hasFields = false →
    mention.fields = [] → ¬mention.IsStub → ofMeeting d.source mention = .ok d

section walk

variable {ms done pending : List Shape} {final found found' : List Declaration} {shape : Shape}
  {d : Declaration}

namespace Told

theorem settled_of_known (unambiguous : Unambiguous ms) (unspoilt : Unspoilt ms final)
    (told : Told done pending found) (ahead : done ++ [shape] <+: ms) (grows : Grows found final)
    (hd : d ∈ found) (named : shape.declaredName? = some d.source)
    (known : d.hasFields = true ∨ shape.fields = []) : Settled found shape := by
  refine ⟨d, hd, named, fun whole => ?_⟩
  cases has : d.hasFields with
  | false =>
    have empty : shape.fields = [] := known.resolve_left (by simp [has])
    exact unspoilt done pending found shape d told ahead grows hd named has empty whole
  | true =>
    obtain ⟨mention, hm, named', made, _⟩ := told.origin d hd
    have listed : mention.fields ≠ [] := (ofMeeting_eq_ok made).2.2.hasFields_iff.mp has
    have telling : ¬mention.IsStub := fun stub => listed stub.fields_eq_nil
    have same := unambiguous.same shape (ahead.subset (by simp)) mention
      (ahead.subset (List.mem_append_left _ hm)) (named.trans named'.symm) whole telling
    rw [← ofMeeting_orNull, same, ofMeeting_orNull, made]

/-- The parts of a mention that has been settled by another have been met with that one. -/
theorem inside_of_settled (unambiguous : Unambiguous ms) (told : Told done pending found)
    (within : ∀ mention ∈ done, mention ∈ ms) (here : shape ∈ ms)
    (smaller : ∀ mention ∈ pending, sizeOf shape < sizeOf mention)
    (settled : Settled found shape) :
    ∀ inner ∈ shape.parts.flatMap Shape.mentions, inner ∈ done := by
  by_cases whole : shape.IsStub
  · simp [whole.parts_eq_nil]
  obtain ⟨d, hd, named, made⟩ := settled
  obtain ⟨mention, hm, named', made', _, inside⟩ := told.origin d hd
  by_cases stub : mention.IsStub
  · have bare : Except.ok d = .ok (opaqueOf d.source) := made'.symm.trans (ofMeeting_stub stub)
    rw [mentions_of_ofMeeting_opaqueOf named ((made whole).trans bare)]
    simp
  · have same := unambiguous.same shape here mention (within mention hm)
      (named.trans named'.symm) whole stub
    have parts : shape.parts = mention.parts := by
      rw [← Shape.parts_orNull, same, Shape.parts_orNull]
    have size : sizeOf shape = sizeOf mention := by
      rw [← Shape.sizeOf_orNull, same, Shape.sizeOf_orNull]
    rcases inside with inside | inside
    · exact absurd (smaller mention inside) (by omega)
    · rw [parts]
      exact inside

end Told

/-- Whether a walk over the shape meets all its mentions, or leaves out only what adds nothing. -/
def Tells (ms : List Shape) (final : List Declaration) (shape : Shape) : Prop :=
  ∀ done pending found found', Told done pending found →
    (∀ mention ∈ pending, sizeOf shape < sizeOf mention) → done ++ shape.mentions <+: ms →
    addShape found shape = .ok found' → Grows found' final →
    Told (done ++ shape.mentions) pending found'

theorem told_of_foldlM {shapes : List Shape} (each : ∀ shape ∈ shapes, Tells ms final shape)
    (told : Told done pending found)
    (smaller : ∀ shape ∈ shapes, ∀ mention ∈ pending, sizeOf shape < sizeOf mention)
    (ahead : done ++ shapes.flatMap Shape.mentions <+: ms)
    (added : shapes.foldlM addShape found = .ok found') (grows : Grows found' final) :
    Told (done ++ shapes.flatMap Shape.mentions) pending found' := by
  induction shapes generalizing done found with
  | nil =>
    cases added
    simpa using told
  | cons shape shapes ih =>
    obtain ⟨here, each⟩ := List.forall_mem_cons.mp each
    obtain ⟨small, smaller⟩ := List.forall_mem_cons.mp smaller
    rw [List.foldlM_cons] at added
    obtain ⟨next, first, rest⟩ := bind_eq_ok.mp added
    rw [List.flatMap_cons, ← List.append_assoc] at ahead ⊢
    have onward : Grows next final := (grows_of_foldlM rest).trans grows
    have told' := here done pending found next told small
      ((List.prefix_append _ _).trans ahead) first onward
    exact ih each told' smaller ahead rest

/-- What the walk adds for a shape tells the same as if it met every mention in it. -/
theorem tells (unambiguous : Unambiguous ms) (unspoilt : Unspoilt ms final) (shape : Shape) :
    Tells ms final shape := by
  induction shape using Shape.parts_induction with
  | step shape ih =>
  intro done pending found found' told smaller ahead added grows
  have smaller' : ∀ part ∈ shape.parts, ∀ mention ∈ pending, sizeOf part < sizeOf mention := by
    intro part hp mention hm
    have := Shape.sizeOf_lt_of_mem_parts hp
    have := smaller mention hm
    omega
  cases name : shape.declaredName? with
  | none =>
    rw [Shape.mentions_unnamed name] at ahead ⊢
    rw [addShape_unnamed found name] at added
    exact told_of_foldlM ih told smaller' ahead added grows
  | some source =>
    rw [Shape.mentions_named name] at ahead ⊢
    rw [List.append_cons] at ahead
    have next : done ++ [shape] <+: ms := (List.prefix_append _ _).trans ahead
    have within : ∀ mention ∈ done ++ [shape], mention ∈ ms := fun mention hm => next.subset hm
    rcases addShape_eq_ok name added with ⟨d, existing, rfl, known, rfl⟩ | ⟨d, fresh, made, parts⟩
    · have hd := (mem_of_find? existing).1
      have settled := told.settled_of_known unambiguous unspoilt next grows hd name known
      have inside := told.inside_of_settled unambiguous
        (fun mention hm => within mention (List.mem_append_left _ hm)) (within shape (by simp))
        smaller settled
      apply told.pass
      rintro mention (_ | ⟨_, hm⟩)
      · exact settled
      · exact told.settled mention (inside mention hm)
    · have declared := told.declare name fresh made unambiguous within
      rw [List.append_cons]
      have pending : ∀ part ∈ shape.parts, ∀ mention ∈ shape :: pending,
          sizeOf part < sizeOf mention := by
        intro part hp
        exact List.forall_mem_cons.mpr ⟨Shape.sizeOf_lt_of_mem_parts hp, smaller' part hp⟩
      have told' := told_of_foldlM ih declared pending ahead parts grows
      exact told'.close fun inner hi => List.mem_append_right _ hi

end walk

end ApiBinding.Declaration
