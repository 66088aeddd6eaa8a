import ApiBinding.Proofs.Module.Models

/-!
Which meeting of a name a module declares. Operations count in the order of their clients: the first
of them that meets the identifier gives the declaration, also if it meets nothing but the name.
-/

namespace ApiBinding

open Identifier (ofRaw)
open Declaration (recordFields collected find?)

namespace Operation

/-- Whether the operation reaches a shape whose name has the identifier. -/
def Meets (operation : Operation) (identifier : String) : Prop :=
  ∃ shape source, operation.Reaches shape ∧ shape.declaredName? = some source ∧
    ofRaw .type source = identifier

/-- Whether the operation reaches a shape of the name that lists fields. -/
def Details (operation : Operation) (source : String) : Prop :=
  ∃ shape, operation.Reaches shape ∧ shape.declaredName? = some source ∧ shape.fields ≠ []

variable {operation : Operation} {found : List Declaration}

theorem find?_eq_none_iff (h : collected operation = .ok found)
    (consistent : operation.IsConsistent) {identifier : String} :
    find? found identifier = none ↔ ¬operation.Meets identifier := by
  obtain ⟨met, roots, covered⟩ := Declaration.covered_of_collected h
  rw [find?, List.find?_eq_none]
  constructor
  · rintro absent ⟨shape, source, reached, named, rfl⟩
    obtain ⟨d, hd, hname, _⟩ := covered.declared shape
      (covered.mem_of_reaches roots consistent reached) source named
    exact absent d hd (by simpa using hname)
  · intro unmet d hd same
    obtain ⟨shape, hshape, named, hname, _⟩ := covered.origin d hd
    refine unmet ⟨shape, d.source, covered.within shape (.inl hshape), named, ?_⟩
    rw [← hname]
    simpa using same

/-- Whether all shapes of the name that the operation reaches list the fields, or none. -/
def ListsOnly (operation : Operation) (source : String) (fields : List Field) : Prop :=
  ∀ shape, operation.Reaches shape → shape.declaredName? = some source → shape.fields ≠ [] →
    shape.fields = fields

theorem find?_eq_record_iff (h : collected operation = .ok found)
    (consistent : operation.IsConsistent) {source : String} {fields : List Field}
    (listed : fields ≠ []) (uniform : operation.ListsOnly source fields) :
    find? found (ofRaw .type source) =
        some ⟨ofRaw .type source, source, .record (recordFields fields)⟩ ↔
      operation.Details source := by
  obtain ⟨met, roots, covered⟩ := Declaration.covered_of_collected h
  constructor
  · intro hfound
    obtain ⟨hd, _⟩ := Declaration.mem_of_find? hfound
    obtain ⟨shape, hshape, named, _, describes, _⟩ := covered.origin _ hd
    refine ⟨shape, covered.within shape (.inl hshape), named, describes.hasFields_iff.mp ?_⟩
    simpa [Declaration.hasFields, recordFields] using listed
  · rintro ⟨shape, reached, named, hfields⟩
    obtain ⟨d, hd, hname, hsource, hhas⟩ := covered.declared shape
      (covered.mem_of_reaches roots consistent reached) source named
    obtain ⟨first, hfirst, firstNamed, _, describes, _⟩ := covered.origin d hd
    have firstListed := describes.hasFields_iff.mp (hhas hfields)
    rw [hsource] at firstNamed
    have same := uniform first (covered.within first (.inl hfirst)) firstNamed firstListed
    have body : d.body = .record (recordFields fields) := by
      cases hbody : d.body with
      | record _ =>
        rw [hbody] at describes
        cases describes
        rw [same]
      | enumeration _ => simp [Declaration.hasFields, hbody] at hhas; exact absurd hhas hfields
      | synonym _ => simp [Declaration.hasFields, hbody] at hhas; exact absurd hhas hfields
    have : d = ⟨ofRaw .type source, source, .record (recordFields fields)⟩ := by
      rw [← body, ← hname, ← hsource]
    rw [← this, ← hname]
    exact Declaration.find?_name covered.distinct hd

/-- Among the declarations of operations, those of the first count that meets the identifier. -/
theorem findSome?_eq_record_iff {members : List Client.Member} {source : String}
    {fields : List Field} (listed : fields ≠ [])
    (each : ∀ member ∈ members, collected member.1 = .ok member.2.declarations ∧
      member.1.IsConsistent ∧ member.1.ListsOnly source fields) :
    members.findSome? (fun member => find? member.2.declarations (ofRaw .type source)) =
        some ⟨ofRaw .type source, source, .record (recordFields fields)⟩ ↔
      ∃ earlier operation later, members.map Prod.fst = earlier ++ operation :: later ∧
        (∀ other ∈ earlier, ¬other.Meets (ofRaw .type source)) ∧ operation.Details source := by
  have absent {member : Client.Member} (hm : member ∈ members) :
      find? member.2.declarations (ofRaw .type source) = none ↔
        ¬member.1.Meets (ofRaw .type source) := by
    obtain ⟨found, consistent, _⟩ := each member hm
    exact find?_eq_none_iff found consistent
  have present {member : Client.Member} (hm : member ∈ members) :
      find? member.2.declarations (ofRaw .type source) =
          some ⟨ofRaw .type source, source, .record (recordFields fields)⟩ ↔
        member.1.Details source := by
    obtain ⟨found, consistent, uniform⟩ := each member hm
    exact find?_eq_record_iff found consistent listed uniform
  rw [List.findSome?_eq_some_iff]
  constructor
  · rintro ⟨earlier, member, later, rfl, hfound, unmet⟩
    refine ⟨earlier.map Prod.fst, member.1, later.map Prod.fst, by simp, ?_, ?_⟩
    · intro other ho
      obtain ⟨m, hm, rfl⟩ := List.mem_map.mp ho
      exact (absent (List.mem_append_left _ hm)).mp (unmet m hm)
    · exact (present (by simp)).mp hfound
  · rintro ⟨earlier, operation, later, split, unmet, details⟩
    obtain ⟨before, rest, rfl, rfl, hrest⟩ := List.map_eq_append_iff.mp split
    obtain ⟨member, after, rfl, rfl, rfl⟩ := List.map_eq_cons_iff.mp hrest
    refine ⟨before, member, after, rfl, (present (by simp)).mpr details, fun m hm => ?_⟩
    exact (absent (List.mem_append_left _ hm)).mpr (unmet m.1 (List.mem_map_of_mem hm))

end Operation

/-- Whether all meetings of a name that list fields list the same. -/
def Description.IsUniform (description : Description) : Prop :=
  ∀ first second name, description.Reaches first → description.Reaches second →
    first.declaredName? = some name → second.declaredName? = some name →
    first.fields ≠ [] → second.fields ≠ [] → first.fields = second.fields

namespace Module

variable {description : Description} {settings : Settings} {before : Option Nat} {text : String}

/-- The record of a name is declared exactly if the first operation that meets its identifier, in the
order of the clients, reaches a shape of the name with fields. -/
theorem record_declared_iff (models : settings.generateModels = true)
    (visible : (settings.generateInterfaces && !settings.suppressInterfaces
      || settings.generateClasses && !settings.suppressClasses) = true)
    (h : (generate description settings before).result = .ok text)
    (consistent : ∀ operation ∈ description.operations, operation.IsConsistent)
    (uniform : description.IsUniform) {shape : Shape} {source : String}
    (reached : description.Reaches shape) (named : shape.declaredName? = some source)
    (listed : shape.fields ≠ []) :
    ∃ clients dialect blocks,
      (Client.ofDescription description settings before).result = .ok clients ∧
      settings.dialect = .ok dialect ∧
      List.Forall₂ (fun client lines => client.blocks dialect = .ok lines) clients blocks ∧
      text = Module.text (Header.lines dialect settings.additionalImports
        ++ (declared clients).flatMap Declaration.lines
        ++ blocks.flatten.flatMap (fun block => block ++ ["", ""])
        ++ SupportClass.linesOf (requiredSupport (shown clients))) ∧
      (⟨ofRaw .type source, source, .record (recordFields shape.fields)⟩ ∈ declared clients ↔
        ∃ earlier operation later,
          Client.grouped description.operations = earlier ++ operation :: later ∧
          (∀ other ∈ earlier, ¬other.Meets (ofRaw .type source)) ∧ operation.Details source) := by
  obtain ⟨clients, dialect, blocks, rendered⟩ := rendered_of_generate h
  obtain ⟨members, taken, built⟩ := Client.built_of_ofDescription rendered.built
  refine ⟨clients, dialect, blocks, rendered.built, rendered.versioned, rendered.blocked, ?_, ?_⟩
  · rw [rendered.text, layout, if_pos models]
  · have all : shown clients = clients := by
      apply List.filter_eq_self.mpr
      intro client hc
      rw [built.clients_eq] at hc
      obtain ⟨tag, _, rfl⟩ := List.mem_map.mp hc
      rw [Client.ofGroup_isShown]
      exact visible
    obtain ⟨ordered, operations, methods, inside⟩ := built.exists_ordered
    rw [mem_declared, all, methods, List.findSome?_map, ← operations]
    apply Operation.findSome?_eq_record_iff listed
    intro member hm
    have hop : member.1 ∈ description.operations :=
      Client.mem_grouped.mp (operations ▸ List.mem_map_of_mem hm)
    have collected := Operation.collected_of_toMethod (built.made member (inside member hm))
    -- Meetings in different operations list the same fields, those of the given shape.
    refine ⟨collected, consistent _ hop, fun other ho hn hl => ?_⟩
    exact uniform other shape source ⟨_, hop, ho⟩ reached hn named hl listed

theorem agrees_of_items {description : Description}
    (h : ∀ operation ∈ description.operations, ∀ shape ∈ operation.shapes,
      shape = item ∨ shape = order) {first second : Shape} {name : String}
    (hf : description.Reaches first) (hs : description.Reaches second)
    (hfn : first.declaredName? = some name) (hsn : second.declaredName? = some name) :
    first = second ∨ (first.IsBare ∧ second.fields ≠ []) ∨ (second.IsBare ∧ first.fields ≠ []) := by
  have reached {shape : Shape} : description.Reaches shape →
      shape = item ∨ shape = order ∨ shape = bareItem := by
    rintro ⟨operation, ho, reached⟩
    refine Operation.Reaches.of_closed
      (motive := fun shape => shape = item ∨ shape = order ∨ shape = bareItem) ?_ ?_ reached
    · intro shape hs
      exact (h operation ho shape hs).imp_right .inl
    · rintro shape (rfl | rfl | rfl) part hp
      · exact .inr (.inl (by simpa [item, Shape.parts, Shape.fields, Shape.additional] using hp))
      · exact .inr (.inr (by simpa [order, Shape.parts, Shape.fields, Shape.additional] using hp))
      · simp [bareItem, Shape.parts, Shape.fields, Shape.additional] at hp
  have same : first.declaredName? = second.declaredName? := hfn.trans hsn.symm
  have bare : bareItem.IsBare := ⟨rfl, rfl⟩
  have listed : item.fields ≠ [] := by simp [item, Shape.fields]
  rcases reached hf with rfl | rfl | rfl <;> rcases reached hs with rfl | rfl | rfl
  · exact .inl rfl
  · exact absurd same (by decide)
  · exact .inr (.inr ⟨bare, listed⟩)
  · exact absurd same (by decide)
  · exact .inl rfl
  · exact absurd same (by decide)
  · exact .inr (.inl ⟨bare, listed⟩)
  · exact absurd same (by decide)
  · exact .inl rfl

theorem uniform_of_items {description : Description}
    (h : ∀ operation ∈ description.operations, ∀ shape ∈ operation.shapes,
      shape = item ∨ shape = order) : description.IsUniform := by
  intro first second name hf hs hfn hsn hfl hsl
  rcases agrees_of_items h hf hs hfn hsn with rfl | ⟨bare, _⟩ | ⟨bare, _⟩
  · rfl
  · exact absurd bare.1 hfl
  · exact absurd bare.1 hsl

theorem item_declared_by_first_meeting :
    ∃ clients, (Client.ofDescription
        { operations := [.answering "First" "GetItem" [("200", item)]] } .standard).result =
          .ok clients ∧
      ⟨"Item", "Item", .record (recordFields item.fields)⟩ ∈ declared clients := by
  obtain ⟨description, hd⟩ : ∃ description : Description, description =
    { operations := [.answering "First" "GetItem" [("200", item)]] } := ⟨_, rfl⟩
  have shapes : ∀ operation ∈ description.operations, ∀ shape ∈ operation.shapes,
      shape = item ∨ shape = order := by simp [hd]
  have reached : (Operation.answering "First" "GetItem" [("200", item)]).Reaches item :=
    ⟨item, by simp, .refl _⟩
  have consistent : ∀ operation ∈ description.operations, operation.IsConsistent := by
    intro operation ho first second name hf hs hfn hsn
    refine (agrees_of_items shapes ⟨_, ho, hf⟩ ⟨_, ho, hs⟩ hfn hsn).imp_left ?_
    rintro rfl
    exact ⟨rfl, rfl⟩
  have listed : item.fields ≠ [] := by simp [item, Shape.fields]
  obtain ⟨text, h⟩ : ∃ text, (generate description .standard).result = .ok text :=
    exists_eq_ok (by rw [hd]; decide +kernel)
  obtain ⟨clients, _, _, built, _, _, _, declares⟩ :=
    record_declared_iff rfl rfl h consistent (uniform_of_items shapes)
      ⟨_, by simp [hd], reached⟩ (show item.declaredName? = some "Item" by decide) listed
  refine ⟨clients, hd ▸ built, declares.mpr ⟨[], _, [], by rw [hd]; rfl, by simp, ?_⟩⟩
  exact ⟨item, reached, by decide, listed⟩

/-- The operations on orders come first, since their client does, and know items by name only. -/
theorem item_lost_to_bare_meeting :
    let description : Description := { operations := [.answering "First" "Zero" [],
      .answering "Second" "GetItem" [("200", item)], .answering "First" "GetOrder" [("200", order)]] }
    description.IsUniform ∧ description.Reaches item ∧
      (generate description .standard).result.isOk = true ∧
      ((Client.ofDescription description .standard).result.map fun clients =>
        (declared clients).map fun d => (d.name, d.hasFields)) =
        .ok [("Order", true), ("Item", false)] := by
  refine ⟨uniform_of_items (by simp), ?_, by decide +kernel, by decide +kernel⟩
  exact ⟨.answering "Second" "GetItem" [("200", item)], by simp, item, by simp, .refl _⟩

end Module

end ApiBinding
