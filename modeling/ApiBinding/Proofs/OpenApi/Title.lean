import ApiBinding.Proofs.OpenApi.Conjunction
import ApiBinding.Proofs.OpenApi.Known

/-!
Names of objects and enumerations: a schema that is referred to by name gives its name to what it is
converted to, unless another schema stands for it on the way.
-/

namespace ApiBinding

namespace Shape

/-- What an object or an enumeration has for a name, if anything. -/
def title? : Shape → Option (Option String)
  | object name _ _ _ => some name
  | enumeration name _ _ => some name
  | _ => none

theorem title?_orNull (shape : Shape) : shape.orNull.title? = shape.title? := by
  cases shape <;> rfl

end Shape

namespace OpenApi

theorem title?_nullIf (nullable : Bool) (shape : Shape) :
    (nullIf nullable shape).title? = shape.title? := by
  cases nullable with
  | false => rfl
  | true => exact shape.title?_orNull

section

variable {schema : Value} {name title : Option String} {shape : Shape}

theorem title?_of_unionPlan {key : String} {nullable : Bool} {members : Value}
    (planned : unionPlan key nullable members = .ok (.fixed shape)) : shape.title? = none := by
  obtain ⟨members, -, planned⟩ := bind_eq_ok.mp planned
  split at planned
  next => cases planned
  next =>
    cases planned
    rfl

theorem title?_of_simpleShape? {nullable : Bool}
    (simple : simpleShape? schema nullable = some shape) : shape.title? = none := by
  unfold simpleShape? at simple
  split at simple
  next => split at simple <;> cases simple <;> rfl
  all_goals cases simple <;> rfl

theorem title?_of_typedPlan {nullable : Bool}
    (planned : typedPlan schema nullable = .ok (.fixed shape)) : shape.title? = none := by
  unfold typedPlan at planned
  split at planned
  next simple =>
    cases planned
    exact title?_of_simpleShape? simple
  next =>
    dsimp only at planned
    split at planned
    next =>
      split at planned
      next =>
        cases planned
        rfl
      next => cases planned
    next =>
      split at planned
      next => cases planned
      next =>
        split at planned
        next =>
          cases planned
          rfl
        next =>
          obtain ⟨_, -, planned⟩ := bind_eq_ok.mp planned
          cases planned
          rfl

theorem title?_of_enumerationShape {nullable : Bool} {values : Value}
    (made : enumerationShape name nullable values = .ok shape) : shape.title? = some name := by
  obtain ⟨members, -, made⟩ := bind_eq_ok.mp made
  dsimp only at made
  split at made
  next =>
    cases made
    rfl
  next =>
    obtain ⟨nullable, -, made⟩ := bind_eq_ok.mp made
    cases made
    rfl

/-- What a schema is converted to by itself has the name that it was handed down. -/
theorem title?_of_fixed (planned : planOf schema name = .ok (.fixed shape))
    (titled : shape.title? = some title) : title = name := by
  unfold planOf at planned
  dsimp only at planned
  split at planned
  next => rw [title?_of_unionPlan planned] at titled; cases titled
  next =>
    split at planned
    next => rw [title?_of_unionPlan planned] at titled; cases titled
    next =>
      split at planned
      next =>
        obtain ⟨bases, -, planned⟩ := bind_eq_ok.mp planned
        split at planned
        next =>
          obtain ⟨_, -, planned⟩ := bind_eq_ok.mp planned
          cases planned
        next => cases planned
      next =>
        split at planned
        next =>
          obtain ⟨made, here, planned⟩ := bind_eq_ok.mp planned
          cases planned
          exact Option.some.inj (titled.symm.trans (title?_of_enumerationShape here))
        next => rw [title?_of_typedPlan planned] at titled; cases titled

end

/-- Whether the conversion at one place gives what that at another one gives, apart from null. A
name leads to what any reference of that name refers to. -/
inductive LeadsTo (document : Value) : Place → Place → Prop where
  | plain {schema : Value} (isMap : schema.isMap = true) (whole : schema.get referenceKey = .null) :
    LeadsTo document (.schema schema) (.inline schema none)
  | refers {schema : Value} {reference : String} (isMap : schema.isMap = true)
    (refers : schema.get referenceKey = .text reference) :
    LeadsTo document (.schema schema) (.reference reference)
  | place {reference : String} {target : Value} (unnamed : namedSchema? reference = none)
    (found : referenced document reference = .ok target) :
    LeadsTo document (.reference reference) (.schema target)
  | name {reference other name : String} {place : Place}
    (named : namedSchema? reference = some name) (named' : namedSchema? other = some name)
    (enters : Enters document other name place) :
    LeadsTo document (.reference reference) place
  | instead {schema inner : Value} {name : Option String} {nullable : Bool}
    (planned : planOf schema name = .ok (.instead nullable inner)) :
    LeadsTo document (.inline schema name) (.schema inner)

/-- Whether an object or an enumeration that is made or cut at a place has the given name. -/
inductive Bears : Place → Option String → Prop where
  | own {schema : Value} {name : Option String} (itself : ∀ nullable inner,
      planOf schema name ≠ .ok (.instead nullable inner)) : Bears (.inline schema name) name
  | cut {reference name : String} (named : namedSchema? reference = some name) :
    Bears (.reference reference) (some name)

/-- Whether the conversion at a place leads to a schema without a name, or to a shape without one
that is known already, and meets no name on its way that is pending. -/
inductive LosesName (document : Value) : Progress → Place → Prop where
  | plain {progress : Progress} {schema : Value} (isMap : schema.isMap = true)
    (whole : schema.get referenceKey = .null)
    (inside : LosesName document progress (.inline schema none)) :
    LosesName document progress (.schema schema)
  | refers {progress : Progress} {schema : Value} {reference : String}
    (isMap : schema.isMap = true) (refers : schema.get referenceKey = .text reference)
    (inside : LosesName document progress (.reference reference)) :
    LosesName document progress (.schema schema)
  | place {progress : Progress} {reference : String} {target : Value}
    (unnamed : namedSchema? reference = none) (found : referenced document reference = .ok target)
    (inside : LosesName document progress (.schema target)) :
    LosesName document progress (.reference reference)
  | known {progress : Progress} {reference name : String} {shape : Shape}
    (named : namedSchema? reference = some name)
    (kept : Entries.get? (· == ·) name progress.named = some shape)
    (nameless : shape.title? = some none) : LosesName document progress (.reference reference)
  | enter {progress : Progress} {reference name : String} {place : Place}
    (named : namedSchema? reference = some name) (unanswered : ¬progress.answers name)
    (enters : Enters document reference name place)
    (inside : LosesName document (progress.begin name) place) :
    LosesName document progress (.reference reference)
  | instead {progress : Progress} {schema inner : Value} {name : Option String} {nullable : Bool}
    (planned : planOf schema name = .ok (.instead nullable inner))
    (inside : LosesName document progress (.schema inner)) :
    LosesName document progress (.inline schema name)
  | own {progress : Progress} {schema : Value} (itself : ∀ nullable inner,
      planOf schema none ≠ .ok (.instead nullable inner)) :
    LosesName document progress (.inline schema none)

/-- Whether the objects and enumerations that are known have names that references to them lead to.
-/
def TitlesKnown (document : Value) (progress : Progress) : Prop :=
  ∀ name shape title reference, Entries.get? (· == ·) name progress.named = some shape →
    shape.title? = some title → namedSchema? reference = some name →
    ∃ place, Relation.ReflTransGen (LeadsTo document) (.reference reference) place ∧
      Bears place title

section

variable {document : Value} {progress final : Progress} {task : Task} {place : Place}
  {shape : Shape} {title : Option String}

theorem Performed.leads (performed : Performed document progress task final)
    (known : TitlesKnown document progress) (one : task = .one place shape)
    (titled : shape.title? = some title) :
    ∃ later, Relation.ReflTransGen (LeadsTo document) place later ∧ Bears later title := by
  have step {first next : Place} (leads : LeadsTo document first next)
      (further : ∃ later, Relation.ReflTransGen (LeadsTo document) next later ∧ Bears later title) :
      ∃ later, Relation.ReflTransGen (LeadsTo document) first later ∧ Bears later title := by
    obtain ⟨later, way, bears⟩ := further
    exact ⟨later, .head leads way, bears⟩
  induction performed generalizing place shape with
  | noObject => cases one; cases titled
  | plain isMap whole _ ih => cases one; exact step (.plain isMap whole) (ih known rfl titled)
  | refers isMap refers _ ih =>
    cases one
    rw [title?_nullIf] at titled
    exact step (.refers isMap refers) (ih known rfl titled)
  | place unnamed found _ ih => cases one; exact step (.place unnamed found) (ih known rfl titled)
  | known named kept => cases one; exact known _ _ _ _ kept titled named
  | cut named =>
    cases one
    cases titled
    exact ⟨_, .refl, .cut named⟩
  | enter named _ _ enters _ ih =>
    cases one
    exact step (.name named named enters) (ih known rfl titled)
  | fixed planned =>
    cases one
    obtain rfl := title?_of_fixed planned titled
    exact ⟨_, .refl, .own fun _ _ instead => nomatch planned.symm.trans instead⟩
  | instead planned _ ih =>
    cases one
    rw [title?_nullIf] at titled
    exact step (.instead planned) (ih known rfl titled)
  | list => cases one; cases titled
  | object planned made =>
    cases one
    cases titled
    exact ⟨_, .refl, .own fun _ _ instead => nomatch planned.symm.trans instead⟩
  | nil => cases one
  | cons => cases one

theorem losesName_plain_iff {schema : Value} (isMap : schema.isMap = true)
    (whole : schema.get referenceKey = .null) :
    LosesName document progress (.schema schema) ↔
      LosesName document progress (.inline schema none) := by
  refine ⟨fun lost => ?_, .plain isMap whole⟩
  cases lost with
  | plain _ _ inside => exact inside
  | refers _ refers => cases whole.symm.trans refers

theorem losesName_refers_iff {schema : Value} {reference : String} (isMap : schema.isMap = true)
    (refers : schema.get referenceKey = .text reference) :
    LosesName document progress (.schema schema) ↔
      LosesName document progress (.reference reference) := by
  refine ⟨fun lost => ?_, .refers isMap refers⟩
  cases lost with
  | plain _ whole => cases refers.symm.trans whole
  | refers _ refers' inside =>
    cases refers.symm.trans refers'
    exact inside

theorem losesName_place_iff {reference : String} {target : Value}
    (unnamed : namedSchema? reference = none) (found : referenced document reference = .ok target) :
    LosesName document progress (.reference reference) ↔
      LosesName document progress (.schema target) := by
  refine ⟨fun lost => ?_, .place unnamed found⟩
  cases lost with
  | place _ found' inside =>
    cases found.symm.trans found'
    exact inside
  | known named => cases unnamed.symm.trans named
  | enter named => cases unnamed.symm.trans named

theorem losesName_known_iff {reference name : String} (named : namedSchema? reference = some name)
    (kept : Entries.get? (· == ·) name progress.named = some shape) :
    LosesName document progress (.reference reference) ↔ shape.title? = some none := by
  refine ⟨fun lost => ?_, .known named kept⟩
  cases lost with
  | place unnamed => cases unnamed.symm.trans named
  | known named' kept' nameless =>
    cases named.symm.trans named'
    cases kept.symm.trans kept'
    exact nameless
  | enter named' unanswered =>
    cases named.symm.trans named'
    exact absurd (.inl (Option.isSome_of_eq_some kept)) unanswered

theorem not_losesName_of_waits {reference name : String}
    (named : namedSchema? reference = some name)
    (fresh : Entries.get? (· == ·) name progress.named = none) (waits : name ∈ progress.pending) :
    ¬LosesName document progress (.reference reference) := by
  intro lost
  cases lost with
  | place unnamed => cases unnamed.symm.trans named
  | known named' kept =>
    cases named.symm.trans named'
    cases fresh.symm.trans kept
  | enter named' unanswered =>
    cases named.symm.trans named'
    exact unanswered (.inr waits)

theorem losesName_enter_iff {reference name : String} (named : namedSchema? reference = some name)
    (unanswered : ¬progress.answers name) (enters : Enters document reference name place) :
    LosesName document progress (.reference reference) ↔
      LosesName document (progress.begin name) place := by
  refine ⟨fun lost => ?_, .enter named unanswered enters⟩
  cases lost with
  | place unnamed => cases unnamed.symm.trans named
  | known named' kept =>
    cases named.symm.trans named'
    exact absurd (.inl (Option.isSome_of_eq_some kept)) unanswered
  | enter named' _ enters' inside =>
    cases named.symm.trans named'
    exact enters.unique enters' ▸ inside

theorem losesName_instead_iff {schema inner : Value} {name : Option String} {nullable : Bool}
    (planned : planOf schema name = .ok (.instead nullable inner)) :
    LosesName document progress (.inline schema name) ↔
      LosesName document progress (.schema inner) := by
  refine ⟨fun lost => ?_, .instead planned⟩
  cases lost with
  | instead planned' inside =>
    cases planned.symm.trans planned'
    exact inside
  | own itself => exact absurd planned (itself _ _)

theorem losesName_inline_iff {schema : Value} {name : Option String}
    (itself : ∀ nullable inner, planOf schema name ≠ .ok (.instead nullable inner)) :
    LosesName document progress (.inline schema name) ↔ name = none := by
  constructor
  · intro lost
    cases lost with
    | instead planned => exact absurd planned (itself _ _)
    | own => rfl
  · rintro rfl
    exact .own itself

/-- What is made has no name where the conversion loses it, and only there. -/
theorem Performed.nameless_iff (performed : Performed document progress task final)
    (one : task = .one place shape) (titled : shape.title? = some title) :
    title = none ↔ LosesName document progress place := by
  induction performed generalizing place shape with
  | noObject => cases one; cases titled
  | plain isMap whole _ ih => cases one; rw [losesName_plain_iff isMap whole, ih rfl titled]
  | refers isMap refers _ ih =>
    cases one
    rw [title?_nullIf] at titled
    rw [losesName_refers_iff isMap refers, ih rfl titled]
  | place unnamed found _ ih => cases one; rw [losesName_place_iff unnamed found, ih rfl titled]
  | known named kept =>
    cases one
    rw [losesName_known_iff named kept, titled, Option.some_inj]
  | cut named fresh waits =>
    cases one
    cases titled
    simp [not_losesName_of_waits named fresh waits]
  | enter named fresh idle enters _ ih =>
    cases one
    rw [losesName_enter_iff named (not_answers fresh idle) enters, ih rfl titled]
  | fixed planned =>
    cases one
    rw [title?_of_fixed planned titled, losesName_inline_iff fun _ _ instead =>
      nomatch planned.symm.trans instead]
  | instead planned _ ih =>
    cases one
    rw [title?_nullIf] at titled
    rw [losesName_instead_iff planned, ih rfl titled]
  | list => cases one; cases titled
  | object planned made =>
    cases one
    cases titled
    rw [losesName_inline_iff fun _ _ instead => nomatch planned.symm.trans instead]
  | nil => cases one
  | cons => cases one

end

/-- References of one name lead to the same names. -/
theorem leads_of_name {document : Value} {reference other name : String} {place : Place}
    {title : Option String} (named : namedSchema? reference = some name)
    (named' : namedSchema? other = some name)
    (way : Relation.ReflTransGen (LeadsTo document) (.reference reference) place)
    (bears : Bears place title) :
    ∃ place, Relation.ReflTransGen (LeadsTo document) (.reference other) place ∧
      Bears place title := by
  rcases Relation.ReflTransGen.cases_head way with rfl | ⟨next, leads, further⟩
  · cases bears with
    | cut again =>
      cases named.symm.trans again
      exact ⟨_, .refl, .cut named'⟩
  · refine ⟨place, .head ?_ further, bears⟩
    cases leads with
    | place unnamed => cases unnamed.symm.trans named
    | name again leads enters =>
      cases named.symm.trans again
      exact .name named' leads enters

theorem Reached.titlesKnown {document : Value} {progress : Progress}
    (reached : Reached document progress) : TitlesKnown document progress := by
  have upholds : Upholds document (fun _ => True) fun name shape => ∀ title reference,
      shape.title? = some title → namedSchema? reference = some name →
      ∃ place, Relation.ReflTransGen (LeadsTo document) (.reference reference) place ∧
        Bears place title := by
    constructor
    · intro reference name progress final shape named _ holds performed title other titled named'
      have titles : TitlesKnown document progress :=
        fun name shape title reference kept => holds.known name shape kept title reference
      obtain ⟨place, way, bears⟩ := performed.leads titles rfl titled
      exact leads_of_name named named' way bears
    · intro _ _ _ _ bound
      exact absurd trivial bound
  intro name shape title reference kept
  exact (reached.passed.holds upholds).known name shape kept title reference

/-- Whatever was converted before, an object or an enumeration to which a reference leads has a name
that the reference leads to: its own, or that of a schema which stands for it. It has none just
where a schema without a name stands for it. -/
theorem title_of_reference {document : Value} {progress final : Progress}
    (reached : Reached document progress) {depth : Nat} {trail : Trail} {reference : String}
    {shape : Shape} {title : Option String}
    (ran : (referenceShape document (shapeAt document depth) trail reference).run progress =
      (.ok shape, final)) (titled : shape.title? = some title) :
    (∃ place, Relation.ReflTransGen (LeadsTo document) (.reference reference) place ∧
      Bears place title) ∧
    (title = none ↔ LosesName document progress (.reference reference)) := by
  have performed := performed_of_referenceShape performed_of_shapeAt ran
  exact ⟨performed.leads reached.titlesKnown rfl titled, performed.nameless_iff rfl titled⟩

/-- A second name for a schema: what it leads to has the first one. -/
theorem title_of_alias :
    Reached twoNames {} ∧ ∃ shape final,
      (referenceShape twoNames (shapeAt twoNames 9) [] "#/components/schemas/Alias").run {} =
        (.ok shape, final) ∧ shape.title? = some (some "Item") ∧
      (∃ place, Relation.ReflTransGen (LeadsTo twoNames) (.reference "#/components/schemas/Alias")
        place ∧ Bears place (some "Item")) ∧
      ¬LosesName twoNames {} (.reference "#/components/schemas/Alias") := by
  have seen : ((referenceShape twoNames (shapeAt twoNames 9) []
      "#/components/schemas/Alias").run {}).1.toOption.bind Shape.title? = some (some "Item") := by
    decide +kernel
  rcases ran : (referenceShape twoNames (shapeAt twoNames 9) []
      "#/components/schemas/Alias").run {} with ⟨result, final⟩
  rw [ran] at seen
  obtain ⟨shape, converted, titled⟩ := Option.bind_eq_some_iff.mp seen
  obtain rfl : result = .ok shape := eq_ok_of_toOption converted
  obtain ⟨leads, lost⟩ := title_of_reference .start ran titled
  exact ⟨.start, shape, final, rfl, titled, leads, fun h => nomatch lost.mpr h⟩

/-- Schemas that are another one as they stand, or null. -/
def wrappers : Value :=
  withSchemas [("Account", mapping [("allOf", .list [objectWith [("id", ofType "string")]])]),
    ("Colour", mapping [("anyOf", .list [mapping [("enum", .list [.text "red"])], ofType "null"])])]

/-- Such a schema gives its fields or members to an object or an enumeration without a name. -/
theorem names_of_wrappers_lost :
    (∃ shape, ((shapeOf wrappers (referTo "Account")).run {}).1 = .ok shape ∧
      shape.title? = some none) ∧
    ∃ shape, ((shapeOf wrappers (referTo "Colour")).run {}).1 = .ok shape ∧
      shape.title? = some none := by
  have nameless {name : String} (seen :
      ((shapeOf wrappers (referTo name)).run {}).1.toOption.bind Shape.title? = some none) :
      ∃ shape, ((shapeOf wrappers (referTo name)).run {}).1 = .ok shape ∧
        shape.title? = some none := by
    obtain ⟨shape, converted, nameless⟩ := Option.bind_eq_some_iff.mp seen
    exact ⟨shape, eq_ok_of_toOption converted, nameless⟩
  exact ⟨nameless (by decide +kernel), nameless (by decide +kernel)⟩

end OpenApi

end ApiBinding
