import ApiBinding.Proofs.OpenApi.Replay

/-!
Shapes that fit a schema: what it may be converted to after any other conversions, where schemas
with names inside of it may be cut to their names.
-/

namespace ApiBinding.OpenApi

open Relation (ReflTransGen)

section

variable (document : Value) (roots : Set Value)

/-- Whether a reference to one name comes up under another one. -/
def Mentions (name other : String) : Prop :=
  ∃ needed reference, Position document roots (some name) needed (.reference reference) ∧
    namedSchema? reference = some other

/-- Whether a schema with a name takes over what another one gives. -/
def Needs (name other : String) : Prop :=
  ∃ reference, Position document roots (some name) true (.reference reference) ∧
    namedSchema? reference = some other

/-- Whether no schema needs one that may come back to it. -/
def Founded : Prop :=
  ∀ name other, Needs document roots name other →
    ¬ReflTransGen (Mentions document roots) other name

/-- Whether a shape is one that a place may give. What is needed is not cut to its name. -/
inductive Fits : Bool → Place → Shape → Prop where
  | noObject {needed : Bool} {schema : Value} (noMap : schema.isMap = false) :
    Fits needed (.schema schema) (.unknown (some "non-object schema") false)
  | plain {needed : Bool} {schema : Value} {shape : Shape} (isMap : schema.isMap = true)
    (whole : schema.get referenceKey = .null) (inside : Fits needed (.inline schema none) shape) :
    Fits needed (.schema schema) shape
  | refers {needed : Bool} {schema : Value} {reference : String} {shape : Shape}
    (isMap : schema.isMap = true) (refers : schema.get referenceKey = .text reference)
    (inside : Fits needed (.reference reference) shape) :
    Fits needed (.schema schema) (nullIf (allowsNull schema) shape)
  | place {needed : Bool} {reference : String} {target : Value} {shape : Shape}
    (unnamed : namedSchema? reference = none) (found : referenced document reference = .ok target)
    (inside : Fits needed (.schema target) shape) : Fits needed (.reference reference) shape
  | name {needed needed' : Bool} {owner : Option String} {reference other name : String}
    {place : Place} {shape : Shape} (named : namedSchema? reference = some name)
    (there : Position document roots owner needed' (.reference other))
    (named' : namedSchema? other = some name) (enters : Enters document other name place)
    (inside : Fits true place shape) : Fits needed (.reference reference) shape
  | cut {reference name : String} (named : namedSchema? reference = some name) :
    Fits false (.reference reference) (stub name)
  | fixed {needed : Bool} {schema : Value} {name : Option String} {shape : Shape}
    (planned : planOf schema name = .ok (.fixed shape)) : Fits needed (.inline schema name) shape
  | instead {needed nullable : Bool} {schema inner : Value} {name : Option String} {shape : Shape}
    (planned : planOf schema name = .ok (.instead nullable inner))
    (inside : Fits needed (.schema inner) shape) :
    Fits needed (.inline schema name) (nullIf nullable shape)
  | list {needed : Bool} {schema items : Value} {name : Option String} {shape : Shape}
    (planned : planOf schema name = .ok (.list items))
    (inside : Fits false (.schema items) shape) :
    Fits needed (.inline schema name) (.array shape (allowsNull schema) true)
  | object {needed : Bool} {schema : Value} {bases : List Value} {name : Option String}
    (planned : planOf schema name = .ok (.object bases)) (made : Ingredients schema bases)
    (members : ∀ call ∈ bases.zip made.shapes, Fits true (.schema call.1) call.2)
    (parts : ∀ call ∈ made.parts, Fits false (.schema call.1) call.2) :
    Fits needed (.inline schema name) (made.object name (allowsNull schema))

/-- Whether a shape is one that a reference to a name may give as a whole. -/
def FitsName (name : String) (shape : Shape) : Prop :=
  ∃ reference, namedSchema? reference = some name ∧
    Fits document roots true (.reference reference) shape

/-- Whether all that is known fits. -/
def KnownFits (progress : Progress) : Prop :=
  ∀ name shape, Entries.get? (· == ·) name progress.named = some shape →
    FitsName document roots name shape

/-- Whether a task is about places that come up under a name, or before there is one. -/
def Task.ComesUpUnder (owner : Option String) : Task → Prop
  | .one place _ => ∃ needed, Position document roots owner needed place
  | .all calls => ∀ call ∈ calls, ∃ needed, Position document roots owner needed (.schema call.1)

/-- Whether the shapes of a task fit. -/
def Task.FitsUnder (owner : Option String) : Task → Prop
  | .one place shape => ∀ needed, Position document roots owner needed place →
    Fits document roots needed place shape
  | .all calls => ∀ call ∈ calls, ∀ needed,
    Position document roots owner needed (.schema call.1) →
    Fits document roots needed (.schema call.1) call.2

/-- Whether all names that are pending lead to the one under which a conversion is. -/
def LeadTo (pending : List String) (owner : Option String) : Prop :=
  ∀ name ∈ pending, ∃ own, owner = some own ∧ ReflTransGen (Mentions document roots) name own

end

section

variable {document : Value} {roots : Set Value} {name : String} {shape : Shape}

theorem FitsName.reference (fits : FitsName document roots name shape) {reference : String}
    (named : namedSchema? reference = some name) (needed : Bool) :
    Fits document roots needed (.reference reference) shape := by
  obtain ⟨other, named', fits⟩ := fits
  cases fits with
  | place unnamed => cases unnamed.symm.trans named'
  | name again there named'' enters inside =>
    cases named'.symm.trans again
    exact .name named there named'' enters inside

theorem LeadTo.begin {pending : List String} {owner : Option String} {needed : Bool}
    {reference : String} (lead : LeadTo document roots pending owner)
    (here : Position document roots owner needed (.reference reference))
    (named : namedSchema? reference = some name) :
    LeadTo document roots (name :: pending) (some name) := by
  intro other among
  refine ⟨name, rfl, ?_⟩
  rcases List.mem_cons.mp among with rfl | among
  · exact .refl
  · obtain ⟨own, rfl, mentions⟩ := lead other among
    exact mentions.tail ⟨needed, reference, here, named⟩

/-- Nothing that is needed is cut: the name would be pending and lead back to where it is needed. -/
theorem LeadTo.needed_eq_false {pending : List String} {owner : Option String} {needed : Bool}
    {reference : String} (founded : Founded document roots)
    (lead : LeadTo document roots pending owner)
    (here : Position document roots owner needed (.reference reference))
    (named : namedSchema? reference = some name) (waits : name ∈ pending) : needed = false := by
  refine Bool.eq_false_iff.mpr fun isNeeded => ?_
  subst isNeeded
  obtain ⟨own, rfl, mentions⟩ := lead name waits
  exact founded own name ⟨reference, here, named⟩ mentions

theorem KnownFits.settle {after : Progress} (known : KnownFits document roots after)
    (fits : FitsName document roots name shape) :
    KnownFits document roots (after.settle name (.ok shape)) := by
  intro other kept found
  change Entries.get? (· == ·) other (Entries.put (· == ·) name shape after.named) = _ at found
  rw [Entries.get?_put] at found
  split at found
  next same =>
    cases found
    exact same ▸ fits
  next => exact known other kept found

/-- Whatever is converted fits, and so does all that is known afterwards. -/
theorem Performed.fits (founded : Founded document roots) {progress final : Progress} {task : Task}
    (performed : Performed document progress task final) {owner : Option String}
    (here : task.ComesUpUnder document roots owner)
    (lead : LeadTo document roots progress.pending owner)
    (known : KnownFits document roots progress) :
    KnownFits document roots final ∧ task.FitsUnder document roots owner := by
  induction performed generalizing owner with
  | noObject noMap => exact ⟨known, fun _ _ => .noObject noMap⟩
  | plain isMap whole _ ih =>
    obtain ⟨needed, here⟩ := here
    obtain ⟨known, fits⟩ := ih ⟨needed, .plain isMap whole here⟩ lead known
    exact ⟨known, fun needed here => .plain isMap whole (fits needed (.plain isMap whole here))⟩
  | refers isMap refers _ ih =>
    obtain ⟨needed, here⟩ := here
    obtain ⟨known, fits⟩ := ih ⟨needed, .refers isMap refers here⟩ lead known
    exact ⟨known, fun needed here => .refers isMap refers (fits needed (.refers isMap refers here))⟩
  | place unnamed found _ ih =>
    obtain ⟨needed, here⟩ := here
    obtain ⟨known, fits⟩ := ih ⟨needed, .place unnamed found here⟩ lead known
    exact ⟨known, fun needed here =>
      .place unnamed found (fits needed (.place unnamed found here))⟩
  | known named kept => exact ⟨known, fun needed _ => (known _ _ kept).reference named needed⟩
  | cut named _ waits =>
    refine ⟨known, fun needed here => ?_⟩
    obtain rfl := lead.needed_eq_false founded here named waits
    exact .cut named
  | enter named _ _ enters _ ih =>
    obtain ⟨needed, here⟩ := here
    have inside := Position.enter named enters here
    obtain ⟨known, fits⟩ := ih ⟨true, inside⟩ (lead.begin here named) known
    have whole (needed : Bool) : Fits document roots needed _ _ :=
      .name named here named enters (fits true inside)
    exact ⟨known.settle ⟨_, named, whole true⟩, fun needed _ => whole needed⟩
  | fixed planned => exact ⟨known, fun _ _ => .fixed planned⟩
  | instead planned _ ih =>
    obtain ⟨needed, here⟩ := here
    obtain ⟨known, fits⟩ := ih ⟨needed, .instead planned here⟩ lead known
    exact ⟨known, fun needed here => .instead planned (fits needed (.instead planned here))⟩
  | list planned _ ih =>
    obtain ⟨needed, here⟩ := here
    obtain ⟨known, fits⟩ := ih ⟨false, .item planned here⟩ lead known
    exact ⟨known, fun needed here => .list planned (fits false (.item planned here))⟩
  | object planned made _ ih =>
    obtain ⟨needed, here⟩ := here
    obtain ⟨members, parts⟩ := here.ingredients planned made
    obtain ⟨known, fits⟩ := ih (fun call among => (List.mem_append.mp among).elim
      (fun member => ⟨true, members call member⟩) fun part => ⟨false, parts call part⟩) lead known
    exact ⟨known, fun needed _ => .object planned made
      (fun call member => fits call (List.mem_append_left _ member) true (members call member))
      fun call part => fits call (List.mem_append_right _ part) false (parts call part)⟩
  | nil => exact ⟨known, fun _ among => nomatch among⟩
  | cons warnings first _ ih ih' =>
    obtain ⟨known, fits⟩ := ih (here _ (List.mem_cons_self ..)) lead known
    have still := first.keeps.pending
    obtain ⟨known, others⟩ := ih' (fun call among => here call (List.mem_cons_of_mem _ among))
      (still ▸ lead) known
    refine ⟨known, fun call among => ?_⟩
    rcases List.mem_cons.mp among with rfl | among
    · exact fits
    · exact others call among

end

end ApiBinding.OpenApi
