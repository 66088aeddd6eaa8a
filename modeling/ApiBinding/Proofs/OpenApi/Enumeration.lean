import ApiBinding.Proofs.OpenApi.Execution
import ApiBinding.Proofs.OpenApi.Known
import ApiBinding.Proofs.Value.Equality

/-!
Schemas that list the values they allow. Wherever one is converted, and whatever refers to it, the
values apart from null are the members of its shape, and null among them counts as a statement that
values may be null.
-/

namespace ApiBinding.OpenApi

/-- Whether a schema is one that lists values, all of them scalars. -/
structure Enumerates (schema : Value) (values : List Value) : Prop where
  noOneOf : (schema.get "oneOf").truth = false
  noAnyOf : (schema.get "anyOf").truth = false
  noAllOf : (schema.get "allOf").truth = false
  listed : schema.get "enum" = .list values
  filled : values ≠ []
  scalars : ∀ v ∈ values, v.IsJsonScalar

/-- The values apart from null. -/
def present (values : List Value) : List Value := values.filter fun v => !v.isNull

/-- Whether null is among what a schema allows that lists values. -/
def allowsNullAmong (schema : Value) (values : List Value) : Bool :=
  allowsNull schema || values.any Value.isNull

/-- The shape of a schema that lists values, under a name, where null may be allowed besides. -/
def enumerationOf (schema : Value) (values : List Value) (title : Option String) (nullable : Bool) :
    Shape :=
  .enumeration title (present values) (nullable || allowsNullAmong schema values)

/-- Whether the conversion at a place comes to that of a schema by itself, after so many names that
have one target each: under which name, and whether null is allowed on the way. -/
inductive StandsFor (document schema : Value) : Nat → Place → Option String → Bool → Prop where
  | here (title : Option String) : StandsFor document schema 0 (.inline schema title) title false
  | plain {n : Nat} {referrer : Value} {title : Option String} {nullable : Bool}
    (isMap : referrer.isMap = true) (whole : referrer.get referenceKey = .null)
    (inside : StandsFor document schema n (.inline referrer none) title nullable) :
    StandsFor document schema n (.schema referrer) title nullable
  | refers {n : Nat} {referrer : Value} {reference : String} {title : Option String}
    {nullable : Bool} (isMap : referrer.isMap = true)
    (refers : referrer.get referenceKey = .text reference)
    (inside : StandsFor document schema n (.reference reference) title nullable) :
    StandsFor document schema n (.schema referrer) title (allowsNull referrer || nullable)
  | place {n : Nat} {reference : String} {target : Value} {title : Option String} {nullable : Bool}
    (unnamed : namedSchema? reference = none) (found : referenced document reference = .ok target)
    (inside : StandsFor document schema n (.schema target) title nullable) :
    StandsFor document schema n (.reference reference) title nullable
  | enter {n : Nat} {reference name : String} {place : Place} {title : Option String}
    {nullable : Bool} (named : namedSchema? reference = some name)
    (only : ∀ other later, namedSchema? other = some name → Enters document other name later →
      later = place)
    (enters : Enters document reference name place)
    (inside : StandsFor document schema n place title nullable) :
    StandsFor document schema (n + 1) (.reference reference) title nullable
  | instead {n : Nat} {referrer inner : Value} {name title : Option String} {nullable given : Bool}
    (planned : planOf referrer name = .ok (.instead given inner))
    (inside : StandsFor document schema n (.schema inner) title nullable) :
    StandsFor document schema n (.inline referrer name) title (given || nullable)

/-- Whether a name, if it stands for the schema, is further away than so many names. -/
def Beyond (document schema : Value) (n : Nat) (name : String) : Prop :=
  ∀ m reference title nullable, namedSchema? reference = some name →
    StandsFor document schema m (.reference reference) title nullable → n < m

/-- Whether a name does not stand for the schema. -/
def IsOther (document schema : Value) (name : String) : Prop :=
  ∀ n, Beyond document schema n name

/-- Whether the shape that a name is given is that of the schema, if it stands for the schema. -/
def Titled (document schema : Value) (values : List Value) (name : String) (shape : Shape) : Prop :=
  ∀ n reference title nullable, namedSchema? reference = some name →
    StandsFor document schema n (.reference reference) title nullable →
    shape = enumerationOf schema values title nullable

/-- The conversion at a place. -/
def convertAt (document : Value) (depth : Nat) (trail : Trail) : Place → Conversion Shape
  | .schema schema => shapeAt document depth trail schema
  | .reference reference => referenceShape document (shapeAt document depth) trail reference
  | .inline schema name => inlineShape (shapeAt document depth) trail schema name

/-- Whether the conversion of a schema gives a shape, by itself and, where it succeeds, inside of
other conversions. -/
structure ConvertsTo (document schema : Value) (progress : Progress) (shape : Shape) : Prop where
  converted : ((shapeOf document schema).run progress).1 = .ok shape
  inside : ∀ depth trail found final,
    (shapeAt document depth trail schema).run progress = (.ok found, final) → found = shape

section

variable {document schema : Value} {values : List Value}

theorem isNull_iff {v : Value} : v.isNull = true ↔ v = .null := by
  unfold Value.isNull
  split <;> simp_all

theorem allowsNullAmong_iff :
    allowsNullAmong schema values = true ↔ SaysNull schema ∨ .null ∈ values := by
  rw [allowsNullAmong, Bool.or_eq_true, allowsNull_iff, List.any_eq_true]
  refine or_congr_right ⟨?_, fun among => ⟨.null, among, rfl⟩⟩
  rintro ⟨v, among, null⟩
  exact isNull_iff.mp null ▸ among

@[simp] theorem nullIf_enumerationOf (given : Bool) (title : Option String) (nullable : Bool) :
    nullIf given (enumerationOf schema values title nullable) =
      enumerationOf schema values title (given || nullable) := by
  cases given <;> rfl

theorem Enumerates.scalars_present (enumerates : Enumerates schema values) :
    ∀ v ∈ present values, v.IsJsonScalar :=
  fun v hv => enumerates.scalars v (List.mem_filter.mp hv).1

theorem Enumerates.planOf_eq (enumerates : Enumerates schema values) (title : Option String) :
    planOf schema title = .ok (.fixed (enumerationOf schema values title false)) := by
  have stated : (schema.get "enum").truth = true := by
    rw [enumerates.listed]
    simpa [Value.truth] using enumerates.filled
  have made : enumerationShape title (allowsNull schema) (.list values) =
      .ok (enumerationOf schema values title false) := by
    rw [enumerationShape, enumerationOf, allowsNullAmong]
    cases allowsNull schema <;> rfl
  unfold planOf
  simp only [enumerates.noOneOf, enumerates.noAnyOf, enumerates.noAllOf, stated, if_true,
    Bool.false_eq_true, if_false]
  rw [enumerates.listed, made]
  rfl

/-- Every place stands for the schema in one way at most. -/
theorem StandsFor.unique (enumerates : Enumerates schema values) {n m : Nat} {place : Place}
    {title title' : Option String} {nullable nullable' : Bool}
    (stands : StandsFor document schema n place title nullable)
    (stands' : StandsFor document schema m place title' nullable') :
    n = m ∧ title = title' ∧ nullable = nullable' := by
  induction stands generalizing m title' nullable' with
  | here title =>
    cases stands' with
    | here => exact ⟨rfl, rfl, rfl⟩
    | instead planned => cases (enumerates.planOf_eq _).symm.trans planned
  | plain _ whole _ ih =>
    cases stands' with
    | plain _ _ inside => exact ih inside
    | refers _ refers => cases whole.symm.trans refers
  | refers _ refers _ ih =>
    cases stands' with
    | plain _ whole => cases refers.symm.trans whole
    | refers _ refers' inside =>
      cases refers.symm.trans refers'
      obtain ⟨rfl, rfl, rfl⟩ := ih inside
      exact ⟨rfl, rfl, rfl⟩
  | place unnamed found _ ih =>
    cases stands' with
    | place _ found' inside =>
      cases found.symm.trans found'
      exact ih inside
    | enter named => cases unnamed.symm.trans named
  | enter named only _ _ ih =>
    cases stands' with
    | place unnamed => cases unnamed.symm.trans named
    | enter named' _ enters inside =>
      cases named.symm.trans named'
      obtain rfl := only _ _ named enters
      obtain ⟨rfl, rfl, rfl⟩ := ih inside
      exact ⟨rfl, rfl, rfl⟩
  | instead planned _ ih =>
    cases stands' with
    | here => cases (enumerates.planOf_eq _).symm.trans planned
    | instead planned' inside =>
      cases planned.symm.trans planned'
      obtain ⟨rfl, rfl, rfl⟩ := ih inside
      exact ⟨rfl, rfl, rfl⟩

theorem StandsFor.unique_name (enumerates : Enumerates schema values) {n m : Nat}
    {reference other name : String} {title title' : Option String} {nullable nullable' : Bool}
    (named : namedSchema? reference = some name) (named' : namedSchema? other = some name)
    (stands : StandsFor document schema n (.reference reference) title nullable)
    (stands' : StandsFor document schema m (.reference other) title' nullable') :
    n = m ∧ title = title' ∧ nullable = nullable' := by
  cases stands with
  | place unnamed => cases unnamed.symm.trans named
  | enter again only enters inside =>
    cases named.symm.trans again
    have here := StandsFor.enter named only enters inside
    cases stands' with
    | place unnamed => cases unnamed.symm.trans named'
    | enter again' only' enters' inside' =>
      cases named'.symm.trans again'
      obtain rfl := only _ _ named' enters'
      obtain ⟨rfl, rfl, rfl⟩ := inside.unique enumerates inside'
      exact ⟨rfl, rfl, rfl⟩

/-- The target of a name is converted at the place that the name enters, if there is one. -/
theorem targetShape_cases (document : Value) (depth : Nat) (reference name : String) :
    (∃ failure, targetShape document (shapeAt document depth) reference name = throw failure) ∨
      ∃ place, Enters document reference name place ∧
        targetShape document (shapeAt document depth) reference name =
          convertAt document depth [] place := by
  unfold targetShape
  cases found : referenced document reference with
  | error failure => exact .inl ⟨failure, rfl⟩
  | ok target =>
    rw [lift_ok_bind]
    split
    next isMap =>
      split
      next refers => exact .inr ⟨_, .onward found refers, rfl⟩
      next whole =>
        exact .inr ⟨_, .target found isMap (Option.not_isSome_iff_eq_none.mp whole), rfl⟩
    next => exact .inl ⟨_, rfl⟩

/-- What a conversion comes to at a place that stands for the schema. -/
structure Comes (document schema : Value) (values : List Value) (n : Nat) (title : Option String)
    (nullable : Bool) (progress : Progress) (after : Except Failure Shape × Progress) : Prop where
  onward : progress.Onward (Beyond document schema n) (Titled document schema values) after.2
  shape : ∀ shape, after.1 = .ok shape → shape = enumerationOf schema values title nullable

theorem Comes.failed {n : Nat} {title : Option String} {nullable : Bool} {progress : Progress}
    (holds : progress.Holds (Beyond document schema n) (Titled document schema values))
    (failure : Failure) :
    Comes document schema values n title nullable progress (.error failure, progress) :=
  ⟨holds.onward, nofun⟩

theorem Comes.nullIf {n : Nat} {title : Option String} {nullable : Bool} {progress : Progress}
    {inner : Conversion Shape}
    (comes : Comes document schema values n title nullable progress (inner.run progress))
    (given : Bool) :
    Comes document schema values n title (given || nullable) progress
      ((do return OpenApi.nullIf given (← inner) : Conversion Shape).run progress) := by
  rw [Conversion.run_bind]
  rcases ran : inner.run progress with ⟨failure | shape, after⟩
  · rw [ran] at comes
    exact ⟨comes.onward, nofun⟩
  · rw [ran] at comes
    refine ⟨comes.onward, fun found made => ?_⟩
    cases made
    rw [comes.shape shape rfl, nullIf_enumerationOf]

theorem Beyond.weaken {n : Nat} {name : String} (beyond : Beyond document schema (n + 1) name) :
    Beyond document schema n name := by
  intro m reference title nullable named stands
  have := beyond m reference title nullable named stands
  omega

/-- A name is entered where the schema is nearer than from any name that is pending. -/
theorem holds_begin (enumerates : Enumerates schema values) {n : Nat} {reference name : String}
    {title : Option String} {nullable : Bool} {progress : Progress}
    (named : namedSchema? reference = some name)
    (stands : StandsFor document schema (n + 1) (.reference reference) title nullable)
    (holds : progress.Holds (Beyond document schema (n + 1)) (Titled document schema values)) :
    (progress.begin name).Holds (Beyond document schema n) (Titled document schema values) where
  idle := by
    refine List.forall_mem_cons.mpr ⟨?_, fun other waits => (holds.idle other waits).weaken⟩
    intro m other title' nullable' named' stands'
    have := (stands.unique_name enumerates named named' stands').1
    omega
  known := holds.known

/-- A reference by a name that stands for the schema comes to it if what the name enters does. -/
theorem comes_of_name (enumerates : Enumerates schema values) {n depth : Nat} (trail : Trail)
    {reference other name : String} {place : Place} {title : Option String} {nullable : Bool}
    {progress : Progress} (named : namedSchema? reference = some name)
    (named' : namedSchema? other = some name)
    (only : ∀ other later, namedSchema? other = some name → Enters document other name later →
      later = place)
    (stands : StandsFor document schema (n + 1) (.reference other) title nullable)
    (inside : ∀ progress : Progress,
      progress.Holds (Beyond document schema n) (Titled document schema values) →
      Comes document schema values n title nullable progress
        ((convertAt document depth [] place).run progress))
    (holds : progress.Holds (Beyond document schema (n + 1)) (Titled document schema values)) :
    Comes document schema values (n + 1) title nullable progress
      ((referenceShape document (shapeAt document depth) trail reference).run progress) := by
  rw [run_referenceShape named]
  cases kept : Entries.get? (· == ·) name progress.named with
  | some shape =>
    refine ⟨holds.onward, fun found made => ?_⟩
    cases made
    exact holds.known name shape kept (n + 1) other title nullable named' stands
  | none =>
    have idle : ¬progress.pending.contains name = true := by
      intro waits
      have waits := List.contains_iff_mem.mp waits
      have := holds.idle name waits (n + 1) other title nullable named' stands
      omega
    dsimp only
    rw [if_neg idle]
    have started := holds_begin enumerates named' stands holds
    have target : Comes document schema values n title nullable (progress.begin name)
        ((targetShape document (shapeAt document depth) reference name).run
          (progress.begin name)) := by
      rcases targetShape_cases document depth reference name with
        ⟨failure, fails⟩ | ⟨later, enters, same⟩
      · rw [fails]
        exact .failed started failure
      · obtain rfl := only reference later named enters
        rw [same]
        exact inside _ started
    refine ⟨(target.onward.settle fun shape given => ?_).tighten holds, target.shape⟩
    intro m other' title' nullable' named'' stands'
    obtain ⟨-, rfl, rfl⟩ := stands.unique_name enumerates named' named'' stands'
    exact target.shape shape given

/-- Whatever is known, the conversion at a place that stands for the schema comes to it, if no name
is pending that is met on the way. -/
theorem StandsFor.comes (enumerates : Enumerates schema values) {n : Nat} {place : Place}
    {title : Option String} {nullable : Bool}
    (stands : StandsFor document schema n place title nullable) (depth : Nat) (trail : Trail)
    (progress : Progress)
    (holds : progress.Holds (Beyond document schema n) (Titled document schema values)) :
    Comes document schema values n title nullable progress
      ((convertAt document depth trail place).run progress) := by
  induction stands generalizing depth trail progress with
  | here title =>
    rw [convertAt, inlineShape_eq, enumerates.planOf_eq, lift_ok_bind]
    refine ⟨holds.onward, fun shape made => ?_⟩
    cases made
    rfl
  | @plain n referrer title nullable isMap whole inside ih =>
    cases depth with
    | zero => exact .failed holds _
    | succ depth =>
      rw [convertAt, shapeAt, shapeStep, if_neg (by simp [isMap]), Conversion.run_lift_bind]
      cases trail.into referrer with
      | error failure => exact .failed holds failure
      | ok trail =>
        dsimp only
        rw [whole]
        exact ih depth trail progress holds
  | @refers n referrer reference title nullable isMap refers inside ih =>
    cases depth with
    | zero => exact .failed holds _
    | succ depth =>
      rw [convertAt, shapeAt, shapeStep, if_neg (by simp [isMap]), Conversion.run_lift_bind]
      cases trail.into referrer with
      | error failure => exact .failed holds failure
      | ok trail =>
        dsimp only
        rw [refers]
        exact (ih depth trail progress holds).nullIf (allowsNull referrer)
  | @place n reference target title nullable unnamed found inside ih =>
    rw [convertAt, referenceShape_of_none unnamed, Conversion.run_lift_bind]
    cases trail.passing (.reference reference) with
    | error failure => exact .failed holds failure
    | ok trail =>
      dsimp only
      rw [found, lift_ok_bind]
      exact ih depth trail progress holds
  | enter named only enters inside ih =>
    have stands := StandsFor.enter named only enters inside
    exact comes_of_name enumerates trail named named only stands (ih depth []) holds
  | @instead n referrer inner name title nullable given planned inside ih =>
    rw [convertAt, inlineShape_eq, planned, lift_ok_bind]
    exact (ih depth trail progress holds).nullIf given

/-- Names that stand for the schema are known by the shape of the schema only. -/
theorem upholds_titled (enumerates : Enumerates schema values) :
    Upholds document (IsOther document schema) (Titled document schema values) where
  given := by
    intro _ name _ _ _ _ other _ _ n reference title nullable named stands
    have := other n n reference title nullable named stands
    omega
  closed := by
    intro reference name progress named bound holds depth trail
    -- Some reference of the name stands for the schema, and so the name enters what it enters.
    simp only [IsOther, Beyond, not_forall] at bound
    obtain ⟨_, m, other, title, nullable, named', stands, _⟩ := bound
    cases stands with
    | place unnamed => cases unnamed.symm.trans named'
    | enter again only enters inside =>
      cases named'.symm.trans again
      have comes := comes_of_name enumerates trail named named' only
        (.enter named' only enters inside) (inside.comes enumerates depth [])
        ⟨fun name waits => holds.idle name waits _, holds.known⟩
      exact comes.onward.tighten holds

theorem StandsFor.performed (enumerates : Enumerates schema values) {n : Nat} {place : Place}
    {title : Option String} {nullable : Bool}
    (stands : StandsFor document schema n place title nullable) {progress : Progress}
    (holds : progress.Holds (Beyond document schema n) (Titled document schema values)) :
    ∃ final, Performed document progress
      (.one place (enumerationOf schema values title nullable)) final := by
  induction stands generalizing progress with
  | here title => exact ⟨progress, .fixed (enumerates.planOf_eq title)⟩
  | plain isMap whole _ ih =>
    obtain ⟨final, inside⟩ := ih holds
    exact ⟨final, .plain isMap whole inside⟩
  | refers isMap refers _ ih =>
    obtain ⟨final, inside⟩ := ih holds
    exact ⟨final, nullIf_enumerationOf .. ▸ .refers isMap refers inside⟩
  | place unnamed found _ ih =>
    obtain ⟨final, inside⟩ := ih holds
    exact ⟨final, .place unnamed found inside⟩
  | @enter n reference name place title nullable named only enters inside ih =>
    have stands := StandsFor.enter named only enters inside
    cases kept : Entries.get? (· == ·) name progress.named with
    | some shape =>
      rw [← holds.known name shape kept _ reference title nullable named stands]
      exact ⟨progress, .known named kept⟩
    | none =>
      have idle : name ∉ progress.pending := by
        intro waits
        have := holds.idle name waits _ reference title nullable named stands
        omega
      obtain ⟨after, inside⟩ := ih (holds_begin enumerates named stands holds)
      exact ⟨_, .enter named kept idle enters inside⟩
  | instead planned _ ih =>
    obtain ⟨final, inside⟩ := ih holds
    exact ⟨final, nullIf_enumerationOf .. ▸ .instead planned inside⟩

/-- After any conversions, what stands for the schema is converted to the shape of the schema, while
no name is pending that stands for the schema too. -/
theorem Enumerates.converts (enumerates : Enumerates schema values)
    (finite : document.isFinite = true) {referrer : Value}
    (finiteReferrer : referrer.isFinite = true) {n : Nat} {title : Option String} {nullable : Bool}
    (stands : StandsFor document schema n (.schema referrer) title nullable) {progress : Progress}
    (passed : Passed document (IsOther document schema) progress) :
    ConvertsTo document referrer progress (enumerationOf schema values title nullable) := by
  have holds := passed.holds (upholds_titled enumerates)
  have near : progress.Holds (Beyond document schema n) (Titled document schema values) :=
    ⟨fun name waits => holds.idle name waits n, holds.known⟩
  constructor
  · obtain ⟨final, performed⟩ := stands.performed enumerates near
    obtain ⟨warnings, ran⟩ := performed.run finite finiteReferrer
    rw [ran]
  · intro depth trail found final ran
    have comes := stands.comes enumerates depth trail progress near
    rw [convertAt, ran] at comes
    exact comes.shape found rfl

end

end ApiBinding.OpenApi
