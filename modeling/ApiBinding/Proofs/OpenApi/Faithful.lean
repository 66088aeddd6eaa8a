import ApiBinding.Proofs.OpenApi.Conjunction
import ApiBinding.Proofs.OpenApi.Fit
import Mathlib.Data.List.Forall2
import Mathlib.Data.Option.Basic

/-!
What is known of a document answers for it: after any conversions a schema is converted to what it
is converted to at first, up to schemas with names that are cut to their names inside of it.
-/

namespace ApiBinding.OpenApi

/-- Whether two shapes are the same but for schemas with names that are cut to their names in one of
them. What is needed is not cut itself. -/
inductive Near (document : Value) (roots : Set Value) : Bool → Shape → Shape → Prop where
  | same {needed : Bool} (shape : Shape) : Near document roots needed shape shape
  | array {needed : Bool} {element element' : Shape} (nullable streamable : Bool)
    (inside : Near document roots false element element') :
    Near document roots needed (.array element nullable streamable)
      (.array element' nullable streamable)
  | object {needed : Bool} (name : Option String) (nullable : Bool)
    (fields : List (Field × Field)) (further : Option (Shape × Shape))
    (alike : ∀ pair ∈ fields, pair.1.name = pair.2.name ∧ pair.1.required = pair.2.required)
    (inside : ∀ pair ∈ fields, Near document roots false pair.1.type pair.2.type)
    (additional : ∀ pair ∈ further, Near document roots false pair.1 pair.2) :
    Near document roots needed
      (.object name (fields.map Prod.fst) (further.map Prod.fst) nullable)
      (.object name (fields.map Prod.snd) (further.map Prod.snd) nullable)
  | cut {name : String} {shape : Shape} (nullable : Bool)
    (named : FitsName document roots name shape) :
    Near document roots false (nullIf nullable (stub name)) (nullIf nullable shape)
  | cut' {name : String} {shape : Shape} (nullable : Bool)
    (named : FitsName document roots name shape) :
    Near document roots false (nullIf nullable shape) (nullIf nullable (stub name))

/-- Whether two fields say the same up to a relation between their types. -/
structure SameField (near : Shape → Shape → Prop) (field other : Field) : Prop where
  name : field.name = other.name
  required : field.required = other.required
  type : near field.type other.type

section

variable {document : Value} {roots : Set Value} {needed : Bool} {shape other : Shape}

theorem Near.weaken (near : Near document roots true shape other) (needed : Bool) :
    Near document roots needed shape other := by
  cases near with
  | same => exact .same _
  | array nullable streamable inside => exact .array nullable streamable inside
  | object name nullable fields further alike inside additional =>
    exact .object name nullable fields further alike inside additional

theorem nullIf_nullIf (nullable nullable' : Bool) (shape : Shape) :
    nullIf nullable (nullIf nullable' shape) = nullIf (nullable || nullable') shape := by
  cases nullable with
  | false => rfl
  | true =>
    cases nullable' with
    | false => rfl
    | true => cases shape <;> rfl

theorem Near.nullIf (near : Near document roots needed shape other) (nullable : Bool) :
    Near document roots needed (nullIf nullable shape) (OpenApi.nullIf nullable other) := by
  cases near with
  | same => exact .same _
  | array nullable' streamable inside =>
    cases nullable with
    | false => exact .array nullable' streamable inside
    | true => exact .array true streamable inside
  | object name nullable' fields further alike inside additional =>
    cases nullable with
    | false => exact .object name nullable' fields further alike inside additional
    | true => exact .object name true fields further alike inside additional
  | cut nullable' named =>
    rw [nullIf_nullIf, nullIf_nullIf]
    exact .cut _ named
  | cut' nullable' named =>
    rw [nullIf_nullIf, nullIf_nullIf]
    exact .cut' _ named

theorem exists_pairs_of_forall₂ {α β : Type} {R : α → β → Prop} {xs : List α} {ys : List β}
    (related : List.Forall₂ R xs ys) :
    ∃ pairs : List (α × β), pairs.map Prod.fst = xs ∧ pairs.map Prod.snd = ys ∧
      ∀ pair ∈ pairs, R pair.1 pair.2 := by
  induction related with
  | nil => exact ⟨[], rfl, rfl, fun _ among => nomatch among⟩
  | @cons x y _ _ here _ ih =>
    obtain ⟨pairs, rfl, rfl, all⟩ := ih
    exact ⟨(x, y) :: pairs, rfl, rfl, List.forall_mem_cons.mpr ⟨here, all⟩⟩

theorem near_object (name : Option String) (nullable : Bool) {fields fields' : List Field}
    {additional additional' : Option Shape}
    (inside : List.Forall₂ (SameField (Near document roots false)) fields fields')
    (further : Option.Rel (Near document roots false) additional additional') :
    Near document roots needed (.object name fields additional nullable)
      (.object name fields' additional' nullable) := by
  obtain ⟨pairs, rfl, rfl, same⟩ := exists_pairs_of_forall₂ inside
  obtain ⟨both, rfl, rfl, near⟩ : ∃ both : Option (Shape × Shape), both.map Prod.fst = additional ∧
      both.map Prod.snd = additional' ∧ ∀ pair ∈ both, Near document roots false pair.1 pair.2 := by
    cases further with
    | none => exact ⟨none, rfl, rfl, fun _ among => nomatch among⟩
    | @some a b near => exact ⟨some (a, b), rfl, rfl, fun _ among => by cases among; exact near⟩
  exact .object name nullable pairs both
    (fun pair among => ⟨(same pair among).name, (same pair among).required⟩)
    (fun pair among => (same pair among).type) near

theorem forall₂_map_of_mem {α β γ : Type} {R : β → γ → Prop} {f : α → β} {g : α → γ} {xs : List α}
    (each : ∀ x ∈ xs, R (f x) (g x)) : List.Forall₂ R (xs.map f) (xs.map g) := by
  rw [List.forall₂_map_left_iff, List.forall₂_map_right_iff]
  exact List.forall₂_same.mpr each

theorem Near.fields (near : Near document roots true shape other) :
    List.Forall₂ (SameField (Near document roots false)) shape.fields other.fields := by
  cases near with
  | same =>
    exact List.forall₂_same.mpr fun field _ => ⟨rfl, rfl, .same _⟩
  | array => exact .nil
  | object name nullable fields further alike inside =>
    exact forall₂_map_of_mem fun pair among =>
      ⟨(alike pair among).1, (alike pair among).2, inside pair among⟩

theorem rel_or {α β : Type} {R : α → β → Prop} {a a' : Option α} {b b' : Option β}
    (first : Option.Rel R a b) (second : Option.Rel R a' b') :
    Option.Rel R (a.or a') (b.or b') := by
  cases first with
  | none => exact second
  | some here => exact .some here

theorem Near.refl_additional (additional : Option Shape) :
    Option.Rel (Near document roots false) additional additional := by
  cases additional with
  | none => exact .none
  | some shape => exact .some (.same shape)

theorem orFurther_near {additional additional' : Option Shape}
    (before : Option.Rel (Near document roots false) additional additional')
    (near : Near document roots true shape other) :
    Option.Rel (Near document roots false) (orFurther additional shape)
      (orFurther additional' other) := by
  cases near with
  | same =>
    cases shape with
    | object => exact rel_or before (Near.refl_additional _)
    | _ => exact before
  | array => exact before
  | object name nullable fields further _ _ both =>
    refine rel_or before ?_
    cases further with
    | none => exact .none
    | some pair => exact .some (both pair rfl)

/-- Whether entries are of the same names and their fields say the same. -/
abbrev SameEntries (document : Value) (roots : Set Value) :
    List (Scalar × Field) → List (Scalar × Field) → Prop :=
  List.Forall₂ fun entry other =>
    entry.1 = other.1 ∧ SameField (Near document roots false) entry.2 other.2

theorem put_near {entries entries' : List (Scalar × Field)} {field field' : Field}
    (before : SameEntries document roots entries entries')
    (same : SameField (Near document roots false) field field') :
    SameEntries document roots (Entries.put Scalar.same field.name field entries)
      (Entries.put Scalar.same field'.name field' entries') := by
  induction before with
  | nil => exact .cons ⟨same.name, same⟩ .nil
  | @cons entry entry' _ _ here rest ih =>
    rw [Entries.put, Entries.put, ← here.1, ← same.name]
    split
    next => exact .cons ⟨rfl, same⟩ rest
    next => exact .cons ⟨rfl, here.2⟩ (same.name ▸ ih)

theorem addFields_near {entries entries' : List (Scalar × Field)} {fields fields' : List Field}
    (before : SameEntries document roots entries entries')
    (same : List.Forall₂ (SameField (Near document roots false)) fields fields') :
    SameEntries document roots (addFields entries fields) (addFields entries' fields') := by
  induction same generalizing entries entries' with
  | nil => exact before
  | cons here _ ih => exact ih (put_near before here)

theorem joined_near {merged merged' : List (Scalar × Field) × Option Shape}
    {shapes shapes' : List Shape} (fields : SameEntries document roots merged.1 merged'.1)
    (further : Option.Rel (Near document roots false) merged.2 merged'.2)
    (near : List.Forall₂ (Near document roots true) shapes shapes') :
    SameEntries document roots (joined merged shapes).1 (joined merged' shapes').1 ∧
      Option.Rel (Near document roots false) (joined merged shapes).2
        (joined merged' shapes').2 := by
  induction near generalizing merged merged' with
  | nil => exact ⟨fields, further⟩
  | cons here _ ih => exact ih (addFields_near fields here.fields) (orFurther_near further here)

theorem ownFields_near (required : List Scalar) (properties : List (Scalar × Value))
    {types types' : List Shape} (near : List.Forall₂ (Near document roots false) types types') :
    List.Forall₂ (SameField (Near document roots false)) (ownFields required properties types)
      (ownFields required properties types') := by
  induction near generalizing properties with
  | nil =>
    rw [ownFields, List.zip_nil_right]
    exact .nil
  | cons here _ ih =>
    cases properties with
    | nil => exact .nil
    | cons property rest => exact .cons ⟨rfl, rfl, here⟩ (ih rest)

theorem furtherOf_near (schema : Value) {inherited inherited' further further' : Option Shape}
    (before : Option.Rel (Near document roots false) inherited inherited')
    (stated : Option.Rel (Near document roots false) further further') :
    Option.Rel (Near document roots false) (furtherOf schema inherited further)
      (furtherOf schema inherited' further') := by
  unfold furtherOf
  split
  next => exact Near.refl_additional _
  next =>
    split
    next => exact stated
    next => exact before

/-- Objects that are made of shapes which are the same up to cuts are the same up to cuts. -/
theorem Ingredients.object_near {schema : Value} {bases : List Value}
    {made made' : Ingredients schema bases}
    (shapes : List.Forall₂ (Near document roots true) made.shapes made'.shapes)
    (types : List.Forall₂ (Near document roots false) made.types made'.types)
    (further : Option.Rel (Near document roots false) made.further made'.further)
    (name : Option String) (nullable : Bool) :
    Near document roots needed (made.object name nullable) (made'.object name nullable) := by
  have required : made'.required = made.required :=
    Except.ok.inj (made'.required_eq.symm.trans made.required_eq)
  have properties : made'.properties = made.properties :=
    Except.ok.inj (made'.properties_eq.symm.trans made.properties_eq)
  obtain ⟨fields, inherited⟩ :
      SameEntries document roots (joined ([], none) made.shapes).1
          (joined ([], none) made'.shapes).1 ∧
        Option.Rel (Near document roots false) (joined ([], none) made.shapes).2
          (joined ([], none) made'.shapes).2 := joined_near .nil .none shapes
  have own := ownFields_near made.required made.properties types
  rw [Ingredients.object, Ingredients.object, required, properties]
  refine near_object name nullable ?_ (furtherOf_near schema inherited further)
  rw [List.forall₂_map_left_iff, List.forall₂_map_right_iff]
  exact (addFields_near fields own).imp fun _ _ same => same.2

theorem forall₂_of_zip {α β γ : Type} {P : α → γ → Prop} {R : β → γ → Prop} {keys : List α}
    {xs : List β} {ys : List γ} (length : xs.length = keys.length)
    (length' : ys.length = keys.length)
    (each : ∀ pair ∈ keys.zip xs, ∀ y, P pair.1 y → R pair.2 y)
    (holds : ∀ pair ∈ keys.zip ys, P pair.1 pair.2) : List.Forall₂ R xs ys := by
  induction keys generalizing xs ys with
  | nil =>
    obtain rfl := List.length_eq_zero_iff.mp length
    obtain rfl := List.length_eq_zero_iff.mp length'
    exact .nil
  | cons key keys ih =>
    match xs, ys with
    | x :: xs, y :: ys =>
      refine .cons (each _ (List.mem_cons_self ..) y (holds _ (List.mem_cons_self ..))) ?_
      exact ih (Nat.succ.inj length) (Nat.succ.inj length')
        (fun pair among => each pair (List.mem_cons_of_mem _ among))
        fun pair among => holds pair (List.mem_cons_of_mem _ among)

end

section

variable {document : Value} {roots : Set Value} {needed : Bool} {schema : Value}
  {bases : List Value} {made made' : Ingredients schema bases}

theorem Ingredients.types_near
    (parts : ∀ call ∈ made.parts, ∀ {other}, Fits document roots false (.schema call.1) other →
      Near document roots false call.2 other)
    (parts' : ∀ call ∈ made'.parts, Fits document roots false (.schema call.1) call.2) :
    List.Forall₂ (Near document roots false) made.types made'.types := by
  have properties : made'.properties = made.properties :=
    Except.ok.inj (made'.properties_eq.symm.trans made.properties_eq)
  have length : made.types.length = (made.properties.map Prod.snd).length := by
    rw [made.types_length, List.length_map]
  have length' : made'.types.length = (made.properties.map Prod.snd).length := by
    rw [made'.types_length, properties, List.length_map]
  refine forall₂_of_zip (P := fun schema => Fits document roots false (.schema schema)) length
    length' (fun call among _ fits => parts call (List.mem_append_left _ among) fits)
    fun call among => ?_
  refine parts' call (List.mem_append_left _ ?_)
  rwa [properties]

theorem Ingredients.further_near
    (parts : ∀ call ∈ made.parts, ∀ {other}, Fits document roots false (.schema call.1) other →
      Near document roots false call.2 other)
    (parts' : ∀ call ∈ made'.parts, Fits document roots false (.schema call.1) call.2) :
    Option.Rel (Near document roots false) made.further made'.further := by
  have stated := made.further_isSome
  have stated' := made'.further_isSome
  have here {call : Value × Shape} (among : call ∈
      (furtherSchema? schema).toList.zip made.further.toList) : call ∈ made.parts :=
    List.mem_append_right _ among
  have there {call : Value × Shape} (among : call ∈
      (furtherSchema? schema).toList.zip made'.further.toList) : call ∈ made'.parts :=
    List.mem_append_right _ among
  generalize furtherSchema? schema = schema? at stated stated' here there
  cases schema? with
  | none =>
    rw [Option.isNone_iff_eq_none.mp (Option.isSome_eq_false_iff.mp stated),
      Option.isNone_iff_eq_none.mp (Option.isSome_eq_false_iff.mp stated')]
    exact .none
  | some further =>
    obtain ⟨shape, filled⟩ := Option.isSome_iff_exists.mp stated
    obtain ⟨shape', filled'⟩ := Option.isSome_iff_exists.mp stated'
    rw [filled] at here ⊢
    rw [filled'] at there ⊢
    exact .some (parts _ (here (List.mem_singleton.mpr rfl))
      (parts' _ (there (List.mem_singleton.mpr rfl))))

end

/-- Two shapes that fit one place are the same up to cuts. -/
theorem Fits.near {document : Value} {roots : Set Value}
    (unambiguous : Unambiguous document roots) {needed : Bool} {place : Place} {shape other : Shape}
    (fits : Fits document roots needed place shape)
    (fits' : Fits document roots needed place other) : Near document roots needed shape other := by
  induction fits generalizing other with
  | noObject noMap =>
    cases fits' with
    | noObject => exact .same _
    | plain isMap => cases noMap.symm.trans isMap
    | refers isMap => cases noMap.symm.trans isMap
  | plain isMap whole _ ih =>
    cases fits' with
    | noObject noMap => cases noMap.symm.trans isMap
    | plain _ _ inside => exact ih inside
    | refers _ refers => cases whole.symm.trans refers
  | refers isMap refers _ ih =>
    cases fits' with
    | noObject noMap => cases noMap.symm.trans isMap
    | plain _ whole => cases refers.symm.trans whole
    | refers _ refers' inside =>
      cases refers.symm.trans refers'
      exact (ih inside).nullIf _
  | place unnamed found _ ih =>
    cases fits' with
    | place _ found' inside =>
      cases found.symm.trans found'
      exact ih inside
    | name named => cases unnamed.symm.trans named
    | cut named => cases unnamed.symm.trans named
  | name named there named' enters inside ih =>
    cases fits' with
    | place unnamed => cases unnamed.symm.trans named
    | name again there' named'' enters' inside' =>
      cases named.symm.trans again
      obtain rfl := (enters'.of_eq (unambiguous there there' named' named'')).unique enters
      exact (ih inside').weaken _
    | cut again =>
      cases named.symm.trans again
      exact .cut' false ⟨_, named, .name named there named' enters inside⟩
  | cut named =>
    cases fits' with
    | place unnamed => cases unnamed.symm.trans named
    | name again there named' enters inside =>
      cases named.symm.trans again
      exact .cut false ⟨_, named, .name named there named' enters inside⟩
    | cut again =>
      cases named.symm.trans again
      exact .same _
  | fixed planned =>
    cases fits' with
    | fixed planned' => cases planned.symm.trans planned'; exact .same _
    | instead planned' => cases planned.symm.trans planned'
    | list planned' => cases planned.symm.trans planned'
    | object planned' => cases planned.symm.trans planned'
  | instead planned _ ih =>
    cases fits' with
    | fixed planned' => cases planned.symm.trans planned'
    | instead planned' inside =>
      cases planned.symm.trans planned'
      exact (ih inside).nullIf _
    | list planned' => cases planned.symm.trans planned'
    | object planned' => cases planned.symm.trans planned'
  | list planned _ ih =>
    cases fits' with
    | fixed planned' => cases planned.symm.trans planned'
    | instead planned' => cases planned.symm.trans planned'
    | list planned' inside =>
      cases planned.symm.trans planned'
      exact .array _ _ (ih inside)
    | object planned' => cases planned.symm.trans planned'
  | object planned made members parts ih ih' =>
    cases fits' with
    | fixed planned' => cases planned.symm.trans planned'
    | instead planned' => cases planned.symm.trans planned'
    | list planned' => cases planned.symm.trans planned'
    | object planned' made' members' parts' =>
      cases planned.symm.trans planned'
      have shapes := forall₂_of_zip (P := fun schema => Fits document roots true (.schema schema))
        made.shapes_length made'.shapes_length (fun call among _ fits => ih call among fits)
        members'
      exact Ingredients.object_near shapes (Ingredients.types_near ih' parts')
        (Ingredients.further_near ih' parts') _ _

section

variable {document : Value} {roots : Set Value} {progress final : Progress} {schema : Value}
  {shape : Shape}

theorem leadTo_idle (idle : progress.pending = []) :
    LeadTo document roots progress.pending none := by
  rw [idle]
  exact fun _ among => nomatch among

theorem Succeeded.knownFits (founded : Founded document roots)
    (succeeded : Succeeded document roots progress) : KnownFits document roots progress := by
  induction succeeded with
  | start => exact fun _ _ kept => nomatch kept
  | step before member ran ih =>
    have performed := performed_of_shapeAt ran
    exact (performed.fits founded ⟨true, .root member⟩ (leadTo_idle before.idle) ih).1

theorem Succeeded.fits (founded : Founded document roots)
    (succeeded : Succeeded document roots progress) (member : schema ∈ roots)
    (ran : (shapeOf document schema).run progress = (.ok shape, final)) :
    Fits document roots true (.schema schema) shape := by
  have performed := performed_of_shapeAt ran
  exact (performed.fits founded ⟨true, .root member⟩ (leadTo_idle succeeded.idle)
    (succeeded.knownFits founded)).2 true (.root member)

/-- After any conversions that succeeded a schema is converted if and only if it is converted at
first, and to the same up to cuts: as long as references of one name lead to the same, and no schema
needs one that may come back to it. -/
theorem converted_alike (finite : document.isFinite = true) (finiteSchema : schema.isFinite = true)
    (unambiguous : Unambiguous document roots) (founded : Founded document roots)
    (succeeded : Succeeded document roots progress) (member : schema ∈ roots) :
    ((∃ shape, ((shapeOf document schema).run progress).1 = .ok shape) ↔
        ∃ shape, ((shapeOf document schema).run {}).1 = .ok shape) ∧
      ∀ shape first, ((shapeOf document schema).run progress).1 = .ok shape →
        ((shapeOf document schema).run {}).1 = .ok first →
        Near document roots true shape first := by
  refine ⟨⟨?_, ?_⟩, fun shape first ran ran' => ?_⟩
  · rintro ⟨shape, ran⟩
    obtain ⟨first, _, ran'⟩ := succeeded.again unambiguous finite finiteSchema member
      (Prod.ext ran rfl) {}
    exact ⟨first, congrArg Prod.fst ran'⟩
  · rintro ⟨first, ran⟩
    obtain ⟨shape, _, ran'⟩ := Succeeded.start.again unambiguous finite finiteSchema member
      (Prod.ext ran rfl) progress
    exact ⟨shape, congrArg Prod.fst ran'⟩
  · have fits := succeeded.fits founded member (Prod.ext ran rfl)
    have fits' := Succeeded.start.fits founded member (Prod.ext ran' rfl)
    exact fits.near unambiguous fits'

end

def toPerson : String := "#/components/schemas/" ++ "Person"

/-- The places that come up in a conversion of persons: the friend of a person is one, which is not
needed as a whole. -/
inductive PersonPlace : Option String → Bool → Place → Prop where
  | first : PersonPlace none true (.schema (referTo "Person"))
  | named : PersonPlace none true (.reference toPerson)
  | person : PersonPlace (some "Person") true (.inline person (some "Person"))
  | friend : PersonPlace (some "Person") false (.schema (referTo "Person"))
  | friendNamed : PersonPlace (some "Person") false (.reference toPerson)

theorem personPlace_of_enters {reference : String} {name : String} {place : Place}
    (known : reference = toPerson) (named : namedSchema? reference = some name)
    (enters : Enters people reference name place) : PersonPlace (some name) true place := by
  subst known
  obtain rfl : "Person" = name := Option.some.inj ((by decide : _ = _).symm.trans named)
  have target {target : Value} (found : referenced people toPerson = .ok target) :
      target = person := by
    obtain ⟨keys, known, leads⟩ := follow?_of_named named found
    simp only [schemaKeys, List.mem_cons, List.not_mem_nil, or_false] at known
    rcases known with rfl | rfl
    · exact (Option.some.inj leads).symm
    · cases leads
  cases enters with
  | onward found refers =>
    obtain rfl := target found
    cases refers
  | target found =>
    obtain rfl := target found
    exact .person

theorem personPlace_of_position {owner : Option String} {needed : Bool} {place : Place}
    (here : Position people {referTo "Person"} owner needed place) :
    PersonPlace owner needed place := by
  have refers : (referTo "Person").get referenceKey = .text toPerson := rfl
  have planned : planOf person (some "Person") = .ok (.object []) := rfl
  induction here with
  | root member =>
    obtain rfl : _ = referTo "Person" := member
    exact .first
  | plain _ whole _ ih => cases ih <;> cases refers.symm.trans whole
  | refers _ refers' _ ih =>
    cases ih with
    | first => cases refers.symm.trans refers'; exact .named
    | friend => cases refers.symm.trans refers'; exact .friendNamed
  | place unnamed _ _ ih =>
    have named : namedSchema? toPerson ≠ none := by decide
    cases ih <;> exact absurd unnamed named
  | enter named enters _ ih => cases ih <;> exact personPlace_of_enters rfl named enters
  | instead planned' _ ih => cases ih; cases planned.symm.trans planned'
  | item planned' _ ih => cases ih; cases planned.symm.trans planned'
  | base planned' member _ ih =>
    cases ih
    cases planned.symm.trans planned'
    cases member
  | property planned' stated member _ ih =>
    cases ih
    have only : propertiesOf person = .ok [(.text "friend", referTo "Person")] := rfl
    cases only.symm.trans stated
    obtain rfl := List.mem_singleton.mp member
    exact .friend
  | further planned' stated _ ih =>
    cases ih
    have nothing : furtherSchema? person = none := rfl
    cases nothing.symm.trans stated

/-- A person that was converted before is converted to the same again, up to cuts. -/
theorem person_converted_alike : ∃ shape progress,
    (shapeOf people (referTo "Person")).run {} = (.ok shape, progress) ∧
    Succeeded people {referTo "Person"} progress ∧ Unambiguous people {referTo "Person"} ∧
    Founded people {referTo "Person"} ∧
    ∃ again, ((shapeOf people (referTo "Person")).run progress).1 = .ok again ∧
      Near people {referTo "Person"} true again shape := by
  have finite : people.isFinite = true := by decide
  have finiteSchema : (referTo "Person").isFinite = true := by decide
  obtain ⟨shape, converted⟩ : ∃ shape, ((shapeOf people (referTo "Person")).run {}).1 = .ok shape :=
    exists_eq_ok (by decide +kernel)
  rcases ran : (shapeOf people (referTo "Person")).run {} with ⟨result, progress⟩
  rw [ran] at converted
  obtain rfl : result = .ok shape := converted
  have member : referTo "Person" ∈ ({referTo "Person"} : Set Value) := rfl
  have succeeded : Succeeded people {referTo "Person"} progress := .step .start member ran
  have unambiguous : Unambiguous people {referTo "Person"} := by
    intro _ _ _ _ _ _ _ here there _ _
    cases personPlace_of_position here <;> cases personPlace_of_position there <;> rfl
  have founded : Founded people {referTo "Person"} := by
    rintro _ _ ⟨_, here, _⟩
    cases personPlace_of_position here
  obtain ⟨ends, near⟩ :=
    converted_alike finite finiteSchema unambiguous founded succeeded member
  obtain ⟨again, ran'⟩ := ends.mpr ⟨shape, congrArg Prod.fst ran⟩
  exact ⟨shape, progress, rfl, succeeded, unambiguous, founded, again, ran',
    near again shape ran' (congrArg Prod.fst ran)⟩

/-- A document with two schemas of one name, at the two places for schemas. -/
def twoPlaces : Value :=
  mapping [("components", mapping [("schemas", mapping [("Id", ofType "integer")])]),
    ("definitions", mapping [("Id", ofType "string")])]

def referToDefinition (name : String) : Value :=
  mapping [("$ref", .text ("#/definitions/" ++ name))]

def primitive? : Shape → Option Primitive
  | .primitive kind _ => some kind
  | _ => none

/-- The first of two schemas of one name that is converted answers for the other one. -/
theorem places_confused :
    ∃ shape progress again first,
      (shapeOf twoPlaces (referToDefinition "Id")).run {} = (.ok shape, progress) ∧
      ((shapeOf twoPlaces (referTo "Id")).run progress).1 = .ok again ∧
      ((shapeOf twoPlaces (referTo "Id")).run {}).1 = .ok first ∧
      primitive? again = some .string ∧ primitive? first = some .integer := by
  have seen : ((shapeOf twoPlaces (referTo "Id")).run
      ((shapeOf twoPlaces (referToDefinition "Id")).run {}).2).1.toOption.bind primitive? =
        some .string := by decide +kernel
  have seen' : ((shapeOf twoPlaces (referTo "Id")).run {}).1.toOption.bind primitive? =
      some .integer := by decide +kernel
  obtain ⟨shape, converted⟩ :
      ∃ shape, ((shapeOf twoPlaces (referToDefinition "Id")).run {}).1 = .ok shape :=
    exists_eq_ok (by decide +kernel)
  rcases earlier : (shapeOf twoPlaces (referToDefinition "Id")).run {} with ⟨result, progress⟩
  rw [earlier] at seen converted
  obtain rfl : result = .ok shape := converted
  obtain ⟨again, ran, kind⟩ := Option.bind_eq_some_iff.mp seen
  obtain ⟨first, ran', kind'⟩ := Option.bind_eq_some_iff.mp seen'
  exact ⟨shape, progress, again, first, rfl, eq_ok_of_toOption ran, eq_ok_of_toOption ran', kind,
    kind'⟩

/-- A schema that takes over the fields of one which refers back to it. -/
def family : Value :=
  withSchemas [("Base", objectWith [("kin", referTo "Derived")]),
    ("Derived", mapping [("allOf", .list [referTo "Base"]),
      ("properties", mapping [("own", ofType "string")])])]

/-- Fields of a schema are lost where it is pending when another one takes them over: its needs are
not `Founded`. -/
theorem base_cut :
    ∃ shape progress again first,
      (shapeOf family (referTo "Base")).run {} = (.ok shape, progress) ∧
      ((shapeOf family (referTo "Derived")).run progress).1 = .ok again ∧
      ((shapeOf family (referTo "Derived")).run {}).1 = .ok first ∧
      again.fields.map FieldOf.name = [.text "own"] ∧
      first.fields.map FieldOf.name = [.text "kin", .text "own"] := by
  have seen : ((shapeOf family (referTo "Derived")).run
      ((shapeOf family (referTo "Base")).run {}).2).1.toOption.map
        (fun shape => shape.fields.map FieldOf.name) = some [.text "own"] := by decide +kernel
  have seen' : ((shapeOf family (referTo "Derived")).run {}).1.toOption.map
      (fun shape => shape.fields.map FieldOf.name) = some [.text "kin", .text "own"] := by
    decide +kernel
  obtain ⟨shape, converted⟩ : ∃ shape, ((shapeOf family (referTo "Base")).run {}).1 = .ok shape :=
    exists_eq_ok (by decide +kernel)
  rcases earlier : (shapeOf family (referTo "Base")).run {} with ⟨result, progress⟩
  rw [earlier] at seen converted
  obtain rfl : result = .ok shape := converted
  obtain ⟨again, ran, names⟩ := Option.map_eq_some_iff.mp seen
  obtain ⟨first, ran', names'⟩ := Option.map_eq_some_iff.mp seen'
  exact ⟨shape, progress, again, first, rfl, eq_ok_of_toOption ran, eq_ok_of_toOption ran', names,
    names'⟩

end ApiBinding.OpenApi
