import ApiBinding.Proofs.Entries
import ApiBinding.Proofs.OpenApi.Plan
import ApiBinding.Proofs.Value

/-!
Fields of conjunctions: a name has one field, where it appeared first and as it was defined last.
Whether it is required is up to that definition alone.
-/

namespace ApiBinding.OpenApi

/-- Whether equality sorts the names into kinds. -/
structure ToldApart (names : List Scalar) : Prop where
  refl : ∀ a ∈ names, a.same a = true
  join : ∀ a ∈ names, ∀ b ∈ names, ∀ c ∈ names, a.same c = true → b.same c = true → a.same b = true

namespace ToldApart

variable {names : List Scalar} {a b c : Scalar}

theorem of_texts (texts : ∀ name ∈ names, ∃ text, name = .text text) : ToldApart names := by
  constructor
  · intro a ha
    obtain ⟨s, rfl⟩ := texts a ha
    exact Scalar.same_text_iff.mpr rfl
  · intro a _ b _ c hc same same'
    obtain ⟨s, rfl⟩ := texts c hc
    rw [Scalar.same_text_iff] at same same'
    rw [same, same']
    exact Scalar.same_text_iff.mpr rfl

theorem symm (told : ToldApart names) (ha : a ∈ names) (hb : b ∈ names) (same : a.same b = true) :
    b.same a = true := told.join b hb a ha b hb (told.refl b hb) same

theorem trans (told : ToldApart names) (ha : a ∈ names) (hb : b ∈ names) (hc : c ∈ names)
    (first : a.same b = true) (second : b.same c = true) : a.same c = true :=
  told.join a ha c hc b hb first (told.symm hb hc second)

theorem mono (told : ToldApart names) {fewer : List Scalar} (fewer_subset : fewer ⊆ names) :
    ToldApart fewer :=
  ⟨fun a ha => told.refl a (fewer_subset ha), fun a ha b hb c hc =>
    told.join a (fewer_subset ha) b (fewer_subset hb) c (fewer_subset hc)⟩

end ToldApart

/-- Whether two definitions are of one name. -/
def SameName (first second : Field) : Bool := first.name.same second.name

/-- The last definition of a name. -/
def lastNamed (name : Scalar) (definitions : List Field) : Option Field :=
  definitions.reverse.find? fun definition => name.same definition.name

/-- One field for each name, in the order in which the names appear first, as they are defined last.
-/
def lastDefinitions (definitions : List Field) : List Field :=
  (Entries.distinct SameName definitions).map fun first =>
    (lastNamed first.name definitions).getD first

section

variable {definitions : List Field} {first added : Field}

theorem lastNamed_append (name : Scalar) (first second : List Field) :
    lastNamed name (first ++ second) = (lastNamed name second).or (lastNamed name first) := by
  rw [lastNamed, List.reverse_append, List.find?_append]
  rfl

theorem sameName_of_ne (told : ToldApart ((first :: definitions ++ [added]).map FieldOf.name))
    (differs : ¬SameName first added = true) {field : Field} (inside : field ∈ definitions)
    (same : SameName field added = true) : SameName first field = false := by
  have among {other : Field} (h : other ∈ first :: definitions ++ [added]) :
      other.name ∈ (first :: definitions ++ [added]).map FieldOf.name := List.mem_map_of_mem h
  refine Bool.eq_false_iff.mpr fun both => differs ?_
  exact told.trans (among (by simp)) (among (by simp [inside])) (among (by simp)) both same

theorem distinct_concat (told : ToldApart ((definitions ++ [added]).map FieldOf.name)) :
    Entries.distinct SameName (definitions ++ [added]) =
      if (Entries.distinct SameName definitions).any (SameName · added) then
        Entries.distinct SameName definitions
      else Entries.distinct SameName definitions ++ [added] := by
  induction definitions with
  | nil => rfl
  | cons first rest ih =>
    rw [List.cons_append, Entries.distinct, Entries.distinct,
      ih (told.mono (List.map_subset _ (List.subset_cons_self ..)))]
    by_cases same : SameName first added
    · have any : (first :: (Entries.distinct SameName rest).filter fun field =>
          !SameName first field).any (SameName · added) = true := by simp [same]
      rw [if_pos any]
      split
      next => rfl
      next => simp [same]
    · have any : (first :: (Entries.distinct SameName rest).filter fun field =>
          !SameName first field).any (SameName · added) =
          (Entries.distinct SameName rest).any (SameName · added) := by
        rw [List.any_cons, Bool.eq_false_iff.mpr same, Bool.false_or, Bool.eq_iff_iff,
          List.any_eq_true, List.any_eq_true]
        constructor
        · rintro ⟨field, member, both⟩
          exact ⟨field, List.mem_of_mem_filter member, both⟩
        · rintro ⟨field, member, both⟩
          have inside := (Entries.distinct_sublist SameName rest).subset member
          have kept : (!SameName first field) = true := by
            rw [sameName_of_ne told same inside both, Bool.not_false]
          exact ⟨field, List.mem_filter.mpr ⟨member, kept⟩, both⟩
      rw [any]
      split
      next => rfl
      next => simp [same]

theorem put_distinct {kept : List Field} {last : Field → Field}
    (told : ToldApart ((kept ++ [added]).map FieldOf.name))
    (differ : kept.Pairwise fun first second => SameName first second = false) :
    Entries.put Scalar.same added.name added (kept.map fun field => (field.name, last field)) =
      if kept.any (SameName · added) then
        kept.map fun field => (field.name, if SameName field added then added else last field)
      else kept.map (fun field => (field.name, last field)) ++ [(added.name, added)] := by
  induction kept with
  | nil => rfl
  | cons first rest ih =>
    obtain ⟨fresh, differ⟩ := List.pairwise_cons.mp differ
    have told' := told.mono (List.map_subset FieldOf.name (List.subset_cons_self first _))
    rw [List.map_cons, Entries.put]
    change (if SameName first added = true then _ else _) = _
    by_cases same : SameName first added
    · have others : ∀ field ∈ rest, SameName field added = false := fun field member => by
        refine Bool.eq_false_iff.mpr fun both => ?_
        have one := told.join first.name (by simp) field.name
          (List.mem_map_of_mem (by simp [member])) added.name (by simp) same both
        exact absurd one (by simpa [SameName] using fresh field member)
      rw [if_pos same, List.any_cons, same, Bool.true_or, if_pos rfl, List.map_cons, if_pos same]
      congr 1
      exact List.map_congr_left fun field member => by simp [others field member]
    · rw [if_neg same, ih told' differ, List.any_cons, Bool.eq_false_iff.mpr same, Bool.false_or]
      split
      next => simp [same]
      next => simp

/-- Fields that are put in one after the other come to the last definitions of their names. -/
theorem addFields_eq (told : ToldApart (definitions.map FieldOf.name)) :
    addFields [] definitions = (Entries.distinct SameName definitions).map fun first =>
      (first.name, (lastNamed first.name definitions).getD first) := by
  induction definitions using List.reverseRecOn with
  | nil => rfl
  | append_singleton definitions added ih =>
    have told' := told.mono (List.map_subset FieldOf.name (List.subset_append_left definitions _))
    have kept := Entries.distinct_sublist SameName definitions
    have told'' : ToldApart ((Entries.distinct SameName definitions ++ [added]).map FieldOf.name) :=
      told.mono (List.map_subset _ (kept.append_right [added]).subset)
    have step : addFields [] (definitions ++ [added]) =
        Entries.put Scalar.same added.name added (addFields [] definitions) := by
      rw [addFields, List.foldl_append]
      rfl
    have last (first : Field) : (lastNamed first.name (definitions ++ [added])).getD first =
        if SameName first added then added else (lastNamed first.name definitions).getD first := by
      rw [lastNamed_append, SameName, lastNamed, List.reverse_singleton, List.find?_singleton]
      split <;> rfl
    rw [step, ih told', put_distinct told'' (Entries.pairwise_distinct ..), distinct_concat told]
    simp only [last]
    split
    next => rfl
    next none =>
      have fresh : ∀ first ∈ Entries.distinct SameName definitions, ¬SameName first added = true :=
        fun first member same => none (List.any_eq_true.mpr ⟨first, member, same⟩)
      have itself : SameName added added = true := told.refl _ (by simp)
      rw [List.map_append, List.map_cons, List.map_nil, if_pos itself]
      congr 1
      exact List.map_congr_left fun first member => by rw [if_neg (fresh first member)]

theorem lastNamed_congr {a b : Scalar} (told : ToldApart (definitions.map FieldOf.name))
    (ha : a ∈ definitions.map FieldOf.name) (hb : b ∈ definitions.map FieldOf.name)
    (same : a.same b = true) : lastNamed a definitions = lastNamed b definitions := by
  have alike : ∀ field ∈ definitions.reverse, a.same field.name = b.same field.name := by
    intro field member
    have named := List.mem_map_of_mem (f := FieldOf.name) (List.mem_reverse.mp member)
    exact Bool.eq_iff_iff.mpr ⟨told.trans hb ha named (told.symm ha hb same),
      told.trans ha hb named same⟩
  rw [lastNamed, lastNamed, ← List.head?_filter, ← List.head?_filter, List.filter_congr alike]

theorem exists_lastNamed (told : ToldApart (definitions.map FieldOf.name)) {field : Field}
    (member : field ∈ definitions) :
    ∃ last ∈ definitions, lastNamed field.name definitions = some last ∧
      SameName field last = true := by
  have itself := told.refl _ (List.mem_map_of_mem member)
  have isSome : (lastNamed field.name definitions).isSome = true :=
    List.find?_isSome.mpr ⟨field, List.mem_reverse.mpr member, itself⟩
  obtain ⟨last, found⟩ := Option.isSome_iff_exists.mp isSome
  exact ⟨last, List.mem_reverse.mp (List.mem_of_find?_eq_some found), found,
    List.find?_some found⟩

/-- A field of those that are left is the last definition of its name. -/
theorem lastNamed_self (told : ToldApart (definitions.map FieldOf.name)) {field : Field}
    (member : field ∈ lastDefinitions definitions) :
    lastNamed field.name definitions = some field := by
  obtain ⟨first, kept, rfl⟩ := List.mem_map.mp member
  have inside := (Entries.distinct_sublist SameName definitions).subset kept
  obtain ⟨last, inside', found, same⟩ := exists_lastNamed told inside
  rw [found, Option.getD_some, ← found]
  exact (lastNamed_congr told (List.mem_map_of_mem inside) (List.mem_map_of_mem inside') same).symm

theorem pairwise_lastDefinitions (told : ToldApart (definitions.map FieldOf.name)) :
    (lastDefinitions definitions).Pairwise fun first second => SameName first second = false := by
  refine List.pairwise_map.mpr ((Entries.pairwise_distinct SameName definitions).imp_of_mem ?_)
  intro first second kept kept' differ
  have inside := (Entries.distinct_sublist SameName definitions).subset kept
  have inside' := (Entries.distinct_sublist SameName definitions).subset kept'
  obtain ⟨last, among, found, same⟩ := exists_lastNamed told inside
  obtain ⟨last', among', found', same'⟩ := exists_lastNamed told inside'
  have named {field : Field} (member : field ∈ definitions) :=
    List.mem_map_of_mem (f := FieldOf.name) member
  rw [found, found', Option.getD_some, Option.getD_some]
  refine Bool.eq_false_iff.mpr fun both => Bool.eq_false_iff.mp differ ?_
  exact told.join _ (named inside) _ (named inside') _ (named among')
    (told.trans (named inside) (named among) (named among') same both) same'

end

/-- What the fields of an object are, by the shapes that it is made of. -/
structure Merged {schema : Value} {bases : List Value} (made : Ingredients schema bases)
    (fields : List Field) : Prop where
  fields_eq : fields = lastDefinitions made.definitions
  differ : fields.Pairwise fun first second => SameName first second = false
  /-- A field that the schema has itself is required if the schema says so, and each other one if
  the last member that has it says so. -/
  required_eq : ∀ field ∈ fields, field.required =
    if made.properties.any fun property => field.name.same property.1 then
      made.required.any (Scalar.same · field.name)
    else (lastNamed field.name (made.shapes.flatMap Shape.fields)).any FieldOf.required

section

variable {schema : Value} {bases : List Value} {made : Ingredients schema bases}

theorem addFields_append (fields : List (Scalar × Field)) (first second : List Field) :
    addFields fields (first ++ second) = addFields (addFields fields first) second :=
  List.foldl_append

theorem joined_fst (merged : List (Scalar × Field) × Option Shape) (shapes : List Shape) :
    (joined merged shapes).1 = addFields merged.1 (shapes.flatMap Shape.fields) := by
  induction shapes generalizing merged with
  | nil => rfl
  | cons shape shapes ih =>
    rw [List.flatMap_cons, addFields_append]
    exact ih _

theorem isSome_lastNamed_ownFields (required : List Scalar) {properties : List (Scalar × Value)}
    {types : List Shape} (same : types.length = properties.length) (name : Scalar) :
    (lastNamed name (ownFields required properties types)).isSome =
      properties.any fun property => name.same property.1 := by
  have names : (properties.zip types).map Prod.fst = properties :=
    List.map_fst_zip (Nat.le_of_eq same.symm)
  rw [lastNamed, List.isSome_find?, List.any_reverse, ownFields, List.any_map]
  conv_rhs => rw [← names, List.any_map]
  rfl

theorem required_of_lastNamed_ownFields {required : List Scalar}
    {properties : List (Scalar × Value)} {types : List Shape} {name : Scalar} {field : Field}
    (found : lastNamed name (ownFields required properties types) = some field) :
    field.required = required.any (Scalar.same · field.name) := by
  obtain ⟨⟨property, type⟩, -, rfl⟩ :=
    List.mem_map.mp (List.mem_reverse.mp (List.mem_of_find?_eq_some found))
  rfl

theorem Ingredients.merged (told : ToldApart (made.definitions.map FieldOf.name))
    (name : Option String) (nullable : Bool) : Merged made (made.object name nullable).fields := by
  have fields_eq : (made.object name nullable).fields = lastDefinitions made.definitions := by
    show (addFields (joined ([], none) made.shapes).1 _).map Prod.snd = _
    rw [joined_fst, ← addFields_append, ← definitions, addFields_eq told, List.map_map]
    rfl
  refine ⟨fields_eq, fields_eq ▸ pairwise_lastDefinitions told, fun field member => ?_⟩
  have last := lastNamed_self told (fields_eq ▸ member)
  rw [definitions, lastNamed_append] at last
  have own := isSome_lastNamed_ownFields made.required made.types_length field.name
  split
  next has =>
    obtain ⟨found, here⟩ := Option.isSome_iff_exists.mp (own.trans has)
    rw [here, Option.some_or, Option.some_inj] at last
    exact required_of_lastNamed_ownFields (last ▸ here)
  next lacks =>
    have none := Option.isSome_eq_false_iff.mp (own.trans (Bool.eq_false_iff.mpr lacks))
    rw [Option.isNone_iff_eq_none.mp none, Option.none_or] at last
    rw [last]
    rfl

/-- The object of a conjunction, or of a schema without members, is made of the shapes of the
members, which are converted one after the other, and of what the schema itself states: it has one
field for each name that equality tells apart from the others. -/
theorem conjunction_merged {shapeOf : Converter} {trail : Trail} {name : Option String}
    {progress final : Progress} {shape : Shape}
    (planned : planOf schema name = .ok (.object bases))
    (ran : (inlineShape shapeOf trail schema name).run progress = (.ok shape, final)) :
    ∃ made : Ingredients schema bases, shape = made.object name (allowsNull schema) ∧
      Calls shapeOf trail progress (bases.zip made.shapes ++ made.parts) final ∧
      (ToldApart (made.definitions.map FieldOf.name) → Merged made shape.fields) := by
  rw [inlineShape_eq, planned, lift_ok_bind] at ran
  obtain ⟨made, rfl, calls⟩ := calls_of_objectShape ran
  exact ⟨made, rfl, calls, fun told => made.merged told name (allowsNull schema)⟩

end

def ofType (type : String) : Value := mapping [("type", .text type)]

/-- A schema that adds properties to those of another one. -/
def extending (base : Value) (required : List String) (properties : List (String × Value)) :
    Value :=
  mapping [("allOf", .list [base]), ("required", .list (required.map .text)),
    ("properties", mapping properties)]

/-- An object that is required to have an identifier. -/
def identified : Value :=
  mapping [("type", .text "object"), ("required", .list [.text "id"]),
    ("properties", mapping [("id", ofType "string")])]

theorem conjunction_merged_identified :
    planOf (extending identified ["age"] [("age", ofType "integer")]) none =
        .ok (.object [identified]) ∧
      ∃ shape final, (inlineShape (shapeAt people 3) []
          (extending identified ["age"] [("age", ofType "integer")]) none).run {} =
        (.ok shape, final) ∧
      ∃ made : Ingredients (extending identified ["age"] [("age", ofType "integer")]) [identified],
        Merged made shape.fields := by
  have planned : planOf (extending identified ["age"] [("age", ofType "integer")]) none =
      .ok (.object [identified]) := rfl
  obtain ⟨shape, final, ran⟩ : ∃ shape final, (inlineShape (shapeAt people 3) []
      (extending identified ["age"] [("age", ofType "integer")]) none).run {} =
        (.ok shape, final) := ⟨_, _, rfl⟩
  obtain ⟨made, _, calls, merged⟩ := conjunction_merged planned ran
  refine ⟨planned, shape, final, ran, ?_⟩
  refine ⟨made, merged (.of_texts fun name named => ?_)⟩
  obtain ⟨shapes, required, properties, types, further, alone, _, own, _, _⟩ := made
  match shapes, alone with
  | [base], _ =>
    cases calls with
    | cons warnings ran _ =>
      cases ran
      cases own
      obtain ⟨field, among, rfl⟩ := List.mem_map.mp named
      rcases List.mem_append.mp among with inherited | stated
      · cases List.mem_singleton.mp inherited
        exact ⟨"id", rfl⟩
      · obtain ⟨⟨property, type⟩, entry, rfl⟩ := List.mem_map.mp stated
        have stated := (List.of_mem_zip entry).1
        cases List.mem_singleton.mp stated
        exact ⟨"age", rfl⟩

/-- What a schema requires of its members is missed, and what they require is forgotten where the
schema has a property of the same name. -/
theorem requirements_missed :
    ((shapeOf people (extending (objectWith [("id", ofType "string")]) ["id"]
        [("age", ofType "integer")])).run {}).1 =
      .ok (.object none [⟨.text "id", .primitive .string false, false⟩,
        ⟨.text "age", .primitive .integer false, false⟩] none false) ∧
    ((shapeOf people (extending identified [] [("id", ofType "integer")])).run {}).1 =
      .ok (.object none [⟨.text "id", .primitive .integer false, false⟩] none false) :=
  ⟨rfl, rfl⟩

end ApiBinding.OpenApi
