import ApiBinding.Proofs.Declaration.Told
import Mathlib.Data.List.Nodup

/-!
Whether declarations hinge on the order in which names are mentioned. They are what the mentions
tell, in the order of the first ones, unless a stub comes before a mention that lists no fields.
-/

namespace ApiBinding.Declaration

open Entries (firsts)

/-- All mentions in shapes, of which some may be absent. -/
def mentioned (shapes : List (Option Shape)) : List Shape :=
  (shapes.filterMap id).flatMap Shape.mentions

/-- Whether the shape is one of those given, or is met inside of one. -/
def Meets (shapes : List (Option Shape)) (shape : Shape) : Prop :=
  ∃ root, some root ∈ shapes ∧ root.Reaches shape

/-- Whether the declarations are one for each name, in the order of the first mentions, and each is
what a mention of its name gives that is no stub, or any if all are stubs. -/
structure Collects (mentions : List Shape) (found : List Declaration) : Prop where
  sources : found.map source = firsts id (mentions.filterMap Shape.declaredName?)
  telling : ∀ mention ∈ mentions, ∀ source, mention.declaredName? = some source →
    (mention.IsStub → ∀ other ∈ mentions, other.declaredName? = some source → other.IsStub) →
    ∃ d ∈ found, ofMeeting source mention = .ok d

/-- Whether a stub is the first to mention a name of which another mention tells the shape of its
values and nothing else. -/
def Forestalled (mentions : List Shape) (source : String) : Prop :=
  ∃ stub full value, first? mentions source = some stub ∧ stub.IsStub ∧ full ∈ mentions ∧
    full.declaredName? = some source ∧ full.fields = [] ∧ full.additional = some value ∧
    TypeHint.ofShape .response value ≠ .any false

variable {ms ms' : List Shape} {found found' final : List Declaration}
  {shapes shapes' : List (Option Shape)}

theorem mem_mentioned {mention : Shape} :
    mention ∈ mentioned shapes ↔ Meets shapes mention ∧ mention.declaredName?.isSome := by
  simp only [mentioned, List.mem_flatMap, Shape.mem_mentions, Meets, List.mem_filterMap, id]
  constructor
  · rintro ⟨root, ⟨_, hr, rfl⟩, reached, named⟩
    exact ⟨⟨root, hr, reached⟩, named⟩
  · rintro ⟨⟨root, hr, reached⟩, named⟩
    exact ⟨root, ⟨some root, hr, rfl⟩, reached, named⟩

theorem Collects.sources_nodup (collects : Collects ms found) : (found.map source).Nodup := by
  rw [collects.sources, ← List.map_id (firsts id _)]
  exact Entries.nodup_map_firsts id _

theorem Collects.eq_of_source (collects : Collects ms found) {d e : Declaration} (hd : d ∈ found)
    (he : e ∈ found) (same : d.source = e.source) : d = e :=
  List.inj_on_of_nodup_map collects.sources_nodup hd he same

theorem unspoilt_of_not_forestalled (unambiguous : Unambiguous ms)
    (free : ∀ source, ¬Forestalled ms source) : Unspoilt ms final := by
  intro done pending found mention d told ahead _ hd named lacks empty whole
  obtain ⟨first, hf, named', made, isFirst, _⟩ := told.origin d hd
  have here : mention ∈ ms := ahead.subset (by simp)
  have there : first ∈ ms := ahead.subset (List.mem_append_left _ hf)
  have said : first.declaredName? = mention.declaredName? := named'.trans named.symm
  by_cases stub : first.IsStub
  · have bare : first.fields = [] := stub.fields_eq_nil
    have kind : mention.isEnumeration = false := by
      rw [← unambiguous.kind first there mention here said]
      obtain ⟨name, nullable, rfl⟩ := stub
      rfl
    obtain ⟨name, value, nullable, rfl⟩ := Shape.exists_additional named whole empty kind
    have hint : TypeHint.ofShape .response value = .any false := by
      by_contra tells
      obtain ⟨rest, rfl⟩ := ahead
      refine free d.source ⟨first, _, value, ?_, stub, here, named, rfl, rfl, tells⟩
      rw [first?_append, first?_append, isFirst bare, Option.some_or, Option.some_or]
    rw [ofMeeting_of_hint_any hint, ← ofMeeting_stub stub, made]
  · rw [← ofMeeting_orNull, ← unambiguous.same first there mention here said stub whole,
      ofMeeting_orNull, made]

theorem unspoilt_of_collects (collects : Collects ms final) : Unspoilt ms final := by
  intro done pending found mention d told ahead grows hd named lacks empty whole
  have here : mention ∈ ms := ahead.subset (by simp)
  obtain ⟨e, he, made⟩ := collects.telling mention here d.source named fun stub => absurd stub whole
  obtain ⟨_, e_source, described⟩ := ofMeeting_eq_ok made
  obtain ⟨d', hd', d'_source, same | ⟨_, has⟩⟩ := grows d hd
  · obtain rfl := collects.eq_of_source hd' he (d'_source.trans e_source.symm)
    rw [made, same]
  · obtain rfl := collects.eq_of_source hd' he (d'_source.trans e_source.symm)
    exact absurd empty (described.hasFields_iff.mp has)

theorem Told.collects (told : Told ms [] found) : Collects ms found where
  sources := told.sources
  telling mention hm source named alone := by
    obtain ⟨d, hd, named', whole⟩ := told.settled mention hm
    obtain rfl : source = d.source := Option.some.inj (named.symm.trans named')
    refine ⟨d, hd, ?_⟩
    by_cases stub : mention.IsStub
    · obtain ⟨origin, ho, named'', made, _⟩ := told.origin d hd
      rw [ofMeeting_stub stub, ← ofMeeting_stub (alone stub origin ho named''), made]
    · exact whole stub

theorem Told.not_forestalled (told : Told ms [] found) (collects : Collects ms found)
    (source : String) : ¬Forestalled ms source := by
  rintro ⟨stub, full, value, first, bare, hf, named, empty, values, tells⟩
  have whole : ¬full.IsStub := by
    rintro ⟨name, nullable, rfl⟩
    cases values
  obtain ⟨d, hd, made⟩ := collects.telling full hf source named fun stub => absurd stub whole
  obtain ⟨_, rfl, described⟩ := ofMeeting_eq_ok made
  have lacks : ¬d.hasFields = true := fun has => described.hasFields_iff.mp has empty
  obtain ⟨origin, _, _, made', isFirst, _⟩ := told.origin d hd
  have none : origin.fields = [] := by
    by_contra listed
    exact lacks ((ofMeeting_eq_ok made').2.2.hasFields_iff.mpr listed)
  obtain rfl : origin = stub := Option.some.inj ((isFirst none).symm.trans first)
  rw [← made', ofMeeting_stub bare] at made
  exact tells ((of_ofMeeting_opaqueOf made).2 value values)

theorem told_of_collect (unambiguous : Unambiguous (mentioned shapes))
    (unspoilt : Unspoilt (mentioned shapes) found) (collected : collect shapes = .ok found) :
    Told (mentioned shapes) [] found := by
  rw [collect_eq_foldlM] at collected
  exact told_of_foldlM (fun shape _ => tells unambiguous unspoilt shape) Told.initial
    (by simp) (List.prefix_refl _) collected (Grows.refl found)

theorem collects_iff (unambiguous : Unambiguous (mentioned shapes))
    (collected : collect shapes = .ok found) :
    Collects (mentioned shapes) found ↔ ∀ source, ¬Forestalled (mentioned shapes) source := by
  constructor
  · intro collects
    have told := told_of_collect unambiguous (unspoilt_of_collects collects) collected
    exact told.not_forestalled collects
  · intro free
    have unspoilt : Unspoilt _ found := unspoilt_of_not_forestalled unambiguous free
    exact (told_of_collect unambiguous unspoilt collected).collects

theorem exists_collected (unambiguous : Unambiguous (mentioned shapes))
    (fixed : ∀ name members nullable, Meets shapes (.enumeration name members nullable) →
      members.all Value.isFixed = true) : ∃ found, collect shapes = .ok found := by
  have walk := walk_shapes (shapes.filterMap id) []
  rw [← collect_eq_foldlM] at walk
  cases collected : collect shapes with
  | ok found => exact ⟨found, rfl⟩
  | error failure =>
    rw [collected] at walk
    have start : Covered (Meets shapes) [] (shapes.filterMap id) [] := by
      apply Covered.initial
      intro shape hs
      exact ⟨shape, by simpa using hs, Shape.Reaches.refl shape⟩
    have closed : ∀ shape, Meets shapes shape → ∀ part ∈ shape.parts, Meets shapes part := by
      rintro shape ⟨root, hr, reached⟩ part hp
      exact ⟨root, hr, reached.part hp⟩
    rcases walk.failure closed [] start with ⟨shape, source, meets, _, refused⟩ | ⟨a, b, clash, _⟩
    · obtain ⟨root, hr, reached⟩ := meets
      obtain ⟨d, made⟩ := exists_ofMeeting source fun name members nullable inside =>
        fixed name members nullable ⟨root, hr, reached.trans inside⟩
      cases made.symm.trans refused
    · obtain ⟨differs, same, ⟨first, hf, ha⟩, second, hs, hb⟩ := clash
      have hf := mem_mentioned.mpr ⟨hf, by simp [ha]⟩
      have hs := mem_mentioned.mpr ⟨hs, by simp [hb]⟩
      exact absurd (unambiguous.identifier first hf second hs a b ha hb same) differs

/-- A declaration of a name is the same wherever the same mentions are collected. -/
theorem Collects.mem (collects : Collects ms found) (collects' : Collects ms' found')
    (perm : ms.Perm ms') {d : Declaration} (hd : d ∈ found) : d ∈ found' := by
  have named : d.source ∈ (firsts id (ms.filterMap Shape.declaredName?)).map id := by
    rw [List.map_id, ← collects.sources]
    exact List.mem_map_of_mem hd
  rw [Entries.key_mem_map_firsts, List.map_id, List.mem_filterMap] at named
  have telling : ∃ mention ∈ ms, mention.declaredName? = some d.source ∧ (mention.IsStub →
      ∀ other ∈ ms, other.declaredName? = some d.source → other.IsStub) := by
    by_cases whole : ∃ mention ∈ ms, mention.declaredName? = some d.source ∧ ¬mention.IsStub
    · obtain ⟨mention, hm, named, whole⟩ := whole
      exact ⟨mention, hm, named, fun stub => absurd stub whole⟩
    · obtain ⟨mention, hm, named⟩ := named
      simp only [not_exists, not_and, not_not] at whole
      exact ⟨mention, hm, named, fun _ => whole⟩
  obtain ⟨mention, hm, named, alone⟩ := telling
  obtain ⟨e, he, made⟩ := collects.telling mention hm d.source named alone
  obtain ⟨e', he', made'⟩ := collects'.telling mention (perm.mem_iff.mp hm) d.source named
    fun stub other ho => alone stub other (perm.mem_iff.mpr ho)
  obtain rfl := collects.eq_of_source hd he (ofMeeting_eq_ok made).2.1.symm
  cases made.symm.trans made'
  exact he'

theorem mentioned_perm (perm : shapes.Perm shapes') : (mentioned shapes).Perm (mentioned shapes') :=
  (perm.filterMap id).flatMap_right Shape.mentions

theorem Unambiguous.perm (unambiguous : Unambiguous ms) (perm : ms.Perm ms') : Unambiguous ms' where
  same first hf second hs :=
    unambiguous.same first (perm.mem_iff.mpr hf) second (perm.mem_iff.mpr hs)
  kind first hf second hs :=
    unambiguous.kind first (perm.mem_iff.mpr hf) second (perm.mem_iff.mpr hs)
  identifier first hf second hs :=
    unambiguous.identifier first (perm.mem_iff.mpr hf) second (perm.mem_iff.mpr hs)

/-- Declarations come out, one for each name that is mentioned, in the order of the first mentions,
and each is what the full mentions of its name give: exactly if no name is forestalled. So the order
of the shapes does not matter where that is so in either order. -/
theorem collected_in_any_order (shapes : List (Option Shape))
    (unambiguous : Unambiguous (mentioned shapes))
    (fixed : ∀ name members nullable, Meets shapes (.enumeration name members nullable) →
      members.all Value.isFixed = true) :
    ∃ found, collect shapes = .ok found ∧
      (Collects (mentioned shapes) found ↔ ∀ source, ¬Forestalled (mentioned shapes) source) ∧
      ∀ shapes', shapes.Perm shapes' → (∀ source, ¬Forestalled (mentioned shapes) source) →
        (∀ source, ¬Forestalled (mentioned shapes') source) →
        ∃ found', collect shapes' = .ok found' ∧ found.Perm found' := by
  obtain ⟨found, collected⟩ := exists_collected unambiguous fixed
  refine ⟨found, collected, collects_iff unambiguous collected, ?_⟩
  intro shapes' perm free free'
  have mentions := mentioned_perm perm
  have unambiguous' := unambiguous.perm mentions
  have fixed' : ∀ name members nullable, Meets shapes' (.enumeration name members nullable) →
      members.all Value.isFixed = true := by
    rintro name members nullable ⟨root, hr, reached⟩
    exact fixed name members nullable ⟨root, perm.mem_iff.mpr hr, reached⟩
  obtain ⟨found', collected'⟩ := exists_collected unambiguous' fixed'
  have collects := (collects_iff unambiguous collected).mpr free
  have collects' := (collects_iff unambiguous' collected').mpr free'
  refine ⟨found', collected', ?_⟩
  rw [List.perm_ext_iff_of_nodup collects.sources_nodup.of_map collects'.sources_nodup.of_map]
  intro d
  exact ⟨collects.mem collects' mentions, collects'.mem collects mentions.symm⟩

def stub (name : String) : Shape := .object (some name) [] none false

def node : Shape :=
  .object (some "Node") [{ name := .text "next", type := stub "Node" }] none true

/-- The stub of a type that holds itself comes before the type. -/
def nodes : List (Option Shape) := [some (.array (stub "Node") false true), none, some node]

theorem mentioned_nodes : mentioned nodes = [stub "Node", node, stub "Node"] := by
  simp [mentioned, nodes, node, stub, Shape.mentions_eq, Shape.declaredName?, Shape.label?,
    Shape.parts, Shape.fields, Shape.additional]

theorem Unambiguous.of_stub {name : String} {full : Shape}
    (stubbed : (stub name).declaredName? = some name)
    (named : full.declaredName? = some name) (object : full.isEnumeration = false)
    (only : ∀ mention ∈ ms, mention = stub name ∨ mention = full) : Unambiguous ms := by
  have bare : (stub name).IsStub := ⟨_, _, rfl⟩
  have named' : ∀ mention ∈ ms, mention.declaredName? = some name := by
    intro mention hm
    rcases only mention hm with rfl | rfl
    · exact stubbed
    · exact named
  have whole : ∀ mention ∈ ms, ¬mention.IsStub → mention = full := by
    intro mention hm whole
    exact (only mention hm).resolve_left (by rintro rfl; exact whole bare)
  have object' : ∀ mention ∈ ms, mention.isEnumeration = false := by
    intro mention hm
    rcases only mention hm with rfl | rfl
    · rfl
    · exact object
  constructor
  · intro first hf second hs _ telling telling'
    rw [whole first hf telling, whole second hs telling']
  · intro first hf second hs _
    rw [object' first hf, object' second hs]
  · intro first hf second hs a b ha hb _
    have ha := (named' first hf).symm.trans ha
    have hb := (named' second hs).symm.trans hb
    exact (Option.some.inj ha).symm.trans (Option.some.inj hb)

theorem nodes_collected_in_any_order :
    ∃ found found', collect nodes = .ok found ∧ Collects (mentioned nodes) found ∧
      collect nodes.reverse = .ok found' ∧ found.Perm found' := by
  have only : ∀ mention ∈ mentioned nodes, mention = stub "Node" ∨ mention = node := by
    simp [mentioned_nodes]
  have unambiguous : Unambiguous (mentioned nodes) := .of_stub rfl rfl rfl only
  have inside : ∀ shape, Meets nodes shape → shape.isEnumeration = false ∧
      ∀ part ∈ shape.parts, part = stub "Node" := by
    rintro shape ⟨root, hr, reached⟩
    induction reached with
    | refl =>
      have given : root = .array (stub "Node") false true ∨ root = node := by
        simpa [nodes] using hr
      rcases given with rfl | rfl <;>
        exact ⟨rfl, by simp [node, Shape.parts, Shape.fields, Shape.additional]⟩
    | tail _ hp ih =>
      obtain rfl := ih.2 _ hp
      exact ⟨rfl, by simp [stub, Shape.parts, Shape.fields, Shape.additional]⟩
  have free (shapes : List (Option Shape)) (perm : nodes.Perm shapes) (source : String) :
      ¬Forestalled (mentioned shapes) source := by
    rintro ⟨_, full, value, _, _, hfull, _, _, values, _⟩
    rcases only full ((mentioned_perm perm).mem_iff.mpr hfull) with rfl | rfl <;> cases values
  have reversed : nodes.Perm nodes.reverse := (List.reverse_perm nodes).symm
  obtain ⟨found, collected, collects, ordered⟩ := collected_in_any_order nodes unambiguous <| by
    intro name members nullable meets
    cases (inside _ meets).1
  obtain ⟨found', collected', perm⟩ :=
    ordered nodes.reverse reversed (free nodes (.refl _)) (free _ reversed)
  exact ⟨found, found', collected, collects.mpr (free nodes (.refl _)), collected', perm⟩

/-- An object of which no key is known, and which holds texts. -/
def labels : Shape := .object (some "Labels") [] (some (.primitive .string false)) false

/-- A stub that comes first forestalls what is told of the same name without fields. -/
theorem labels_forestalled :
    Unambiguous (mentioned [some (stub "Labels"), some labels]) ∧
      (∃ found, collect [some (stub "Labels"), some labels] = .ok found ∧
        found.flatMap lines = ["Labels = dict[str, Any]", "", ""] ∧
        ¬Collects (mentioned [some (stub "Labels"), some labels]) found) ∧
      ∃ found, collect [some labels, some (stub "Labels")] = .ok found ∧
        found.flatMap lines = ["Labels = dict[str, str]", "", ""] := by
  have mentions : mentioned [some (stub "Labels"), some labels] = [stub "Labels", labels] := by
    simp [mentioned, stub, labels, Shape.mentions_eq, Shape.declaredName?, Shape.label?,
      Shape.parts, Shape.fields, Shape.additional]
  have only : ∀ mention ∈ mentioned [some (stub "Labels"), some labels],
      mention = stub "Labels" ∨ mention = labels := by
    simp [mentions]
  have unambiguous := Unambiguous.of_stub rfl rfl rfl only
  refine ⟨unambiguous, ⟨_, rfl, by decide +kernel, fun collects => ?_⟩, _, rfl, by decide +kernel⟩
  refine (collects_iff unambiguous rfl).mp collects "Labels"
    ⟨stub "Labels", labels, .primitive .string false, ?_, ⟨_, _, rfl⟩, ?_, rfl, rfl, rfl, ?_⟩
  · rw [mentions]
    rfl
  · simp [mentions]
  · simp [TypeHint.ofShape, TypeHint.ofPrimitive]

end ApiBinding.Declaration
