import ApiBinding.Proofs.OpenApi.Enough
import ApiBinding.Proofs.OpenApi.Execution
import ApiBinding.Proofs.OpenApi.Trace
import Mathlib.Data.Set.Basic

/-!
Conversions that are done again: what succeeded once succeeds at any other progress, whatever is
known there, if all references of one name lead to the same.
-/

namespace ApiBinding.OpenApi

/-- The places that come up while some schemas are converted. Each belongs to a name, or to none
before the first one is entered. Where a place is `needed`, what it gives is taken over by another
schema, which has no use for a name alone. -/
inductive Position (document : Value) (roots : Set Value) :
    Option String → Bool → Place → Prop where
  | root {schema : Value} (member : schema ∈ roots) :
    Position document roots none true (.schema schema)
  | plain {owner : Option String} {needed : Bool} {schema : Value} (isMap : schema.isMap = true)
    (whole : schema.get referenceKey = .null)
    (here : Position document roots owner needed (.schema schema)) :
    Position document roots owner needed (.inline schema none)
  | refers {owner : Option String} {needed : Bool} {schema : Value} {reference : String}
    (isMap : schema.isMap = true) (refers : schema.get referenceKey = .text reference)
    (here : Position document roots owner needed (.schema schema)) :
    Position document roots owner needed (.reference reference)
  | place {owner : Option String} {needed : Bool} {reference : String} {target : Value}
    (unnamed : namedSchema? reference = none) (found : referenced document reference = .ok target)
    (here : Position document roots owner needed (.reference reference)) :
    Position document roots owner needed (.schema target)
  | enter {owner : Option String} {needed : Bool} {reference name : String} {place : Place}
    (named : namedSchema? reference = some name) (enters : Enters document reference name place)
    (here : Position document roots owner needed (.reference reference)) :
    Position document roots (some name) true place
  | instead {owner name : Option String} {needed nullable : Bool} {schema inner : Value}
    (planned : planOf schema name = .ok (.instead nullable inner))
    (here : Position document roots owner needed (.inline schema name)) :
    Position document roots owner needed (.schema inner)
  | item {owner name : Option String} {needed : Bool} {schema items : Value}
    (planned : planOf schema name = .ok (.list items))
    (here : Position document roots owner needed (.inline schema name)) :
    Position document roots owner false (.schema items)
  | base {owner name : Option String} {needed : Bool} {schema base : Value} {bases : List Value}
    (planned : planOf schema name = .ok (.object bases)) (member : base ∈ bases)
    (here : Position document roots owner needed (.inline schema name)) :
    Position document roots owner true (.schema base)
  | property {owner name : Option String} {needed : Bool} {schema : Value} {bases : List Value}
    {properties : List (Scalar × Value)} {property : Scalar × Value}
    (planned : planOf schema name = .ok (.object bases))
    (stated : propertiesOf schema = .ok properties) (member : property ∈ properties)
    (here : Position document roots owner needed (.inline schema name)) :
    Position document roots owner false (.schema property.2)
  | further {owner name : Option String} {needed : Bool} {schema further : Value}
    {bases : List Value} (planned : planOf schema name = .ok (.object bases))
    (stated : furtherSchema? schema = some further)
    (here : Position document roots owner needed (.inline schema name)) :
    Position document roots owner false (.schema further)

/-- Whether all references of one name that come up lead to the same, if they lead anywhere. -/
def Unambiguous (document : Value) (roots : Set Value) : Prop :=
  ∀ {owner owner' : Option String} {needed needed' : Bool} {reference other name : String},
    Position document roots owner needed (.reference reference) →
    Position document roots owner' needed' (.reference other) →
    namedSchema? reference = some name → namedSchema? other = some name →
    referenced document reference = referenced document other

section

variable {document : Value} {roots : Set Value} {owner : Option String} {needed : Bool}

/-- The schemas that an object is made of come up, its bases as such and all others not. -/
theorem Position.ingredients {schema : Value} {name : Option String} {bases : List Value}
    (planned : planOf schema name = .ok (.object bases)) (made : Ingredients schema bases)
    (here : Position document roots owner needed (.inline schema name)) :
    (∀ call ∈ bases.zip made.shapes, Position document roots owner true (.schema call.1)) ∧
      ∀ call ∈ made.parts, Position document roots owner false (.schema call.1) := by
  constructor
  · exact fun call member => .base planned (List.of_mem_zip member).1 here
  · intro call member
    rcases List.mem_append.mp member with property | further
    · obtain ⟨entry, among, same⟩ := List.mem_map.mp (List.of_mem_zip property).1
      exact same ▸ .property planned made.properties_eq among here
    · have stated := Option.mem_toList.mp (List.of_mem_zip further).1
      exact .further planned stated here

theorem Enters.of_eq {reference other name : String} {place : Place}
    (enters : Enters document other name place)
    (same : referenced document reference = referenced document other) :
    Enters document reference name place := by
  cases enters with
  | onward found refers => exact .onward (same.trans found) refers
  | target found isMap whole => exact .target (same.trans found) isMap whole

end

section

variable {document : Value} {roots : Set Value} {progress after final : Progress} {task : Task}

theorem answers_settle {name other : String} (shape : Shape) (answers : after.answers other) :
    (after.settle name (.ok shape)).answers other := by
  by_cases same : name = other
  · exact .inl (by rw [knows_settle_ok, decide_eq_true same, Bool.true_or])
  · rcases answers with known | waits
    · exact .inl (by rw [knows_settle_ok, known, Bool.or_true])
    · right
      rw [pending_settle]
      exact (List.mem_erase_of_ne (Ne.symm same)).mpr waits

theorem Keeps.settle {name : String} {shape : Shape}
    (fresh : Entries.get? (· == ·) name progress.named = none)
    (kept : Keeps (progress.begin name) after) :
    Keeps progress (after.settle name (.ok shape)) := by
  refine ⟨?_, fun other known found => ?_⟩
  · rw [pending_settle, kept.pending]
    exact List.erase_cons_head ..
  · have different : name ≠ other := by
      rintro rfl
      cases fresh.symm.trans found
    show Entries.get? (· == ·) other (Entries.put (· == ·) name shape after.named) = _
    rw [Entries.get?_put, if_neg different]
    exact kept.named other known found

/-- What was known before a task is known afterwards, and the same names are pending. -/
theorem Performed.keeps (performed : Performed document progress task final) :
    Keeps progress final := by
  induction performed with
  | noObject => exact .refl _
  | plain _ _ _ ih => exact ih
  | refers _ _ _ ih => exact ih
  | place _ _ _ ih => exact ih
  | known => exact .refl _
  | cut => exact .refl _
  | enter _ fresh _ _ _ ih => exact ih.settle fresh
  | fixed => exact .refl _
  | instead _ _ ih => exact ih
  | list _ _ ih => exact ih
  | object _ _ _ ih => exact ih
  | nil warnings => exact .of_warnings _ warnings
  | cons warnings _ _ ih ih' => exact .trans (.of_warnings _ warnings) (ih.trans ih')

/-- Whether the places of a task come up. -/
def Task.ComesUp (document : Value) (roots : Set Value) : Task → Prop
  | .one place _ => ∃ owner needed, Position document roots owner needed place
  | .all calls => ∀ call ∈ calls, ∃ owner needed,
    Position document roots owner needed (.schema call.1)

theorem Position.ingredientsComeUp {owner name : Option String} {needed : Bool} {schema : Value}
    {bases : List Value} (planned : planOf schema name = .ok (.object bases))
    (made : Ingredients schema bases)
    (here : Position document roots owner needed (.inline schema name)) :
    (Task.all (bases.zip made.shapes ++ made.parts)).ComesUp document roots := by
  obtain ⟨members, parts⟩ := here.ingredients planned made
  intro call among
  rcases List.mem_append.mp among with member | part
  · exact ⟨owner, true, members call member⟩
  · exact ⟨owner, false, parts call part⟩

/-- Whether there is a derivation of what a reference of some name leads to, which met no names but
the given ones. -/
def OnRecord (document : Value) (roots : Set Value) (met : String → Prop) (name : String) : Prop :=
  ∃ owner needed reference place progress shape final,
    Position document roots owner needed (.reference reference) ∧
    namedSchema? reference = some name ∧ Enters document reference name place ∧
    Performed document progress (.one place shape) final ∧ ∀ other, final.answers other → met other

theorem OnRecord.mono {met met' : String → Prop} {name : String}
    (record : OnRecord document roots met name) (more : ∀ other, met other → met' other) :
    OnRecord document roots met' name := by
  obtain ⟨owner, needed, reference, place, progress, shape, final, here, named, enters, performed,
    few⟩ := record
  exact ⟨owner, needed, reference, place, progress, shape, final, here, named, enters, performed,
    fun other answers => more other (few other answers)⟩

/-- Every name that becomes known goes on record. -/
theorem Performed.onRecord (performed : Performed document progress task final)
    (here : task.ComesUp document roots) (name : String) (known : final.knows name = true) :
    progress.knows name = true ∨ OnRecord document roots final.answers name := by
  induction performed with
  | noObject => exact .inl known
  | plain isMap whole _ ih =>
    obtain ⟨owner, needed, here⟩ := here
    exact ih ⟨owner, needed, .plain isMap whole here⟩ known
  | refers isMap refers _ ih =>
    obtain ⟨owner, needed, here⟩ := here
    exact ih ⟨owner, needed, .refers isMap refers here⟩ known
  | place unnamed found _ ih =>
    obtain ⟨owner, needed, here⟩ := here
    exact ih ⟨owner, needed, .place unnamed found here⟩ known
  | known => exact .inl known
  | cut => exact .inl known
  | @enter _ after reference own place shape named _ _ enters inside ih =>
    obtain ⟨owner, needed, here⟩ := here
    rw [knows_settle_ok, Bool.or_eq_true] at known
    rcases known with same | known
    · obtain rfl : own = name := of_decide_eq_true same
      exact .inr ⟨owner, needed, reference, place, _, shape, after, here, named, enters, inside,
        fun other => answers_settle shape⟩
    · rcases ih ⟨some own, true, .enter named enters here⟩ known with before | record
      · exact .inl before
      · exact .inr (record.mono fun other => answers_settle shape)
  | fixed => exact .inl known
  | instead planned _ ih =>
    obtain ⟨owner, needed, here⟩ := here
    exact ih ⟨owner, needed, .instead planned here⟩ known
  | list planned _ ih =>
    obtain ⟨owner, needed, here⟩ := here
    exact ih ⟨owner, false, .item planned here⟩ known
  | object planned made _ ih =>
    obtain ⟨owner, needed, here⟩ := here
    exact ih (here.ingredientsComeUp planned made) known
  | nil => exact .inl known
  | cons warnings _ further ih ih' =>
    have others := fun call among => here call (List.mem_cons_of_mem _ among)
    rcases ih' others known with before | record
    · rcases ih (here _ (List.mem_cons_self ..)) before with before | record
      · exact .inl before
      · exact .inr (record.mono fun other answers => further.keeps.answers answers)
    · exact .inr record

end

theorem zip_map_fst_map_snd {α β : Type} {keys : List α} {pairs : List (α × β)}
    (same : pairs.map Prod.fst = keys) : keys.zip (pairs.map Prod.snd) = pairs := by
  rw [← same, List.zip_map']
  exact List.map_id pairs

/-- An object may be made of other shapes for the same schemas. -/
theorem Ingredients.refill {schema : Value} {bases : List Value} (made : Ingredients schema bases)
    {calls : List (Value × Shape)}
    (same : calls.map Prod.fst = (bases.zip made.shapes ++ made.parts).map Prod.fst) :
    ∃ other : Ingredients schema bases, bases.zip other.shapes ++ other.parts = calls := by
  have few : bases.length ≤ made.shapes.length := Nat.le_of_eq made.shapes_length.symm
  have few' : (made.properties.map Prod.snd).length ≤ made.types.length := by
    rw [List.length_map, made.types_length]
  rw [parts, List.map_append, List.map_append, List.map_fst_zip few, List.map_fst_zip few'] at same
  obtain ⟨members, rest, rfl, members_eq, same⟩ := List.map_eq_append_iff.mp same
  obtain ⟨properties, last, rfl, properties_eq, same⟩ := List.map_eq_append_iff.mp same
  have count : (properties.map Prod.snd).length = made.properties.length := by
    rw [List.length_map, ← List.length_map (f := Prod.fst), properties_eq, List.length_map]
  have length : (members.map Prod.snd).length = bases.length := by
    rw [List.length_map, ← members_eq, List.length_map]
  obtain ⟨further, further_isSome, further_eq⟩ : ∃ further : Option Shape,
      further.isSome = (furtherSchema? schema).isSome ∧
        (furtherSchema? schema).toList.zip further.toList = last := by
    have stated := made.further_isSome
    generalize furtherSchema? schema = schema? at same stated ⊢
    cases schema? with
    | none =>
      obtain rfl := List.map_eq_nil_iff.mp same
      exact ⟨none, rfl, rfl⟩
    | some further =>
      obtain ⟨shape, filled⟩ := Option.isSome_iff_exists.mp stated
      rw [filled] at same
      obtain ⟨call, rfl, rfl⟩ := List.map_eq_singleton_iff.mp same
      exact ⟨some call.2, rfl, rfl⟩
  refine ⟨⟨members.map Prod.snd, made.required, made.properties, properties.map Prod.snd, further,
    length, made.required_eq, made.properties_eq, count, further_isSome⟩, ?_⟩
  rw [parts, zip_map_fst_map_snd members_eq, zip_map_fst_map_snd properties_eq, further_eq]

/-- Whether two tasks are about the same places. -/
inductive Task.Alike : Task → Task → Prop where
  | one {place : Place} (shape shape' : Shape) : Alike (.one place shape) (.one place shape')
  | all {calls calls' : List (Value × Shape)} (same : calls'.map Prod.fst = calls.map Prod.fst) :
    Alike (.all calls) (.all calls')

theorem exists_of_alike {document : Value} {progress : Progress} {place : Place} {shape : Shape}
    (redone : ∃ task final, Task.Alike (.one place shape) task ∧
      Performed document progress task final) :
    ∃ shape' final, Performed document progress (.one place shape') final := by
  obtain ⟨task, final, alike, performed⟩ := redone
  cases alike with
  | one shape shape' => exact ⟨shape', final, performed⟩

section

variable {document : Value} {roots : Set Value} (unambiguous : Unambiguous document roots)
  {met : String → Prop} (records : ∀ name, met name → OnRecord document roots met name)

/-- Whether all names that were met are known or pending, but for the given ones. -/
def Answers (met : String → Prop) (progress : Progress) (remaining : List String) : Prop :=
  ∀ name, met name → progress.answers name ∨ name ∈ remaining

theorem Answers.begin {progress : Progress} {remaining : List String} {name : String}
    (answers : Answers met progress remaining) :
    Answers met (progress.begin name) (remaining.erase name) := by
  intro other among
  by_cases same : other = name
  · exact .inl (.inr (same ▸ List.mem_cons_self ..))
  · rcases answers other among with known | left
    · exact .inl (known.imp id (List.mem_cons_of_mem name))
    · exact .inr ((List.mem_erase_of_ne same).mpr left)

include unambiguous records

/-- A reference is converted again from its record, or answered. -/
theorem reference_again {progress : Progress} {remaining : List String}
    (answers : Answers met progress remaining)
    (again : ∀ {name : String} {place : Place} {shape : Shape} {before after : Progress},
      name ∈ remaining → Performed document before (.one place shape) after →
      (Task.one place shape).ComesUp document roots → (∀ other, after.answers other → met other) →
      ∃ shape final, Performed document (progress.begin name) (.one place shape) final)
    {owner : Option String} {needed : Bool} {reference name : String}
    (here : Position document roots owner needed (.reference reference))
    (named : namedSchema? reference = some name) (among : met name) :
    ∃ shape final, Performed document progress (.one (.reference reference) shape) final := by
  cases kept : Entries.get? (· == ·) name progress.named with
  | some shape => exact ⟨shape, progress, .known named kept⟩
  | none =>
    by_cases waits : name ∈ progress.pending
    · exact ⟨_, progress, .cut named kept waits⟩
    · obtain ⟨owner', needed', other, place, before, shape, after, there, named', enters, performed,
        few⟩ := records name among
      have left : name ∈ remaining :=
        (answers name among).resolve_left (not_answers kept waits)
      obtain ⟨shape, final, inside⟩ := again left performed
        ⟨some name, true, .enter named' enters there⟩ few
      have enters := enters.of_eq (unambiguous here there named named')
      exact ⟨shape, _, .enter named kept waits enters inside⟩

/-- What was done once can be done again at any progress, if its names are on record. -/
theorem Performed.again {before after : Progress} {task : Task}
    (performed : Performed document before task after) (here : task.ComesUp document roots)
    (few : ∀ name, after.answers name → met name) (remaining : List String) :
    ∀ progress, Answers met progress remaining →
      ∃ task' final, task.Alike task' ∧ Performed document progress task' final := by
  -- A name is entered only if it is left over, and then there is one name less inside.
  induction size : remaining.length using Nat.strong_induction_on
    generalizing remaining before after task with
  | _ count smaller =>
    have reference {progress : Progress} (answers : Answers met progress remaining)
        {owner : Option String} {needed : Bool} {reference name : String} {shape : Shape}
        (here : Position document roots owner needed (.reference reference))
        (named : namedSchema? reference = some name) (among : met name) :
        ∃ task' final, Task.Alike (.one (.reference reference) shape) task' ∧
          Performed document progress task' final := by
      have again {name : String} {place : Place} {shape : Shape} {before after : Progress}
          (left : name ∈ remaining) (performed : Performed document before (.one place shape) after)
          (here : (Task.one place shape).ComesUp document roots)
          (few : ∀ other, after.answers other → met other) :
          ∃ shape final, Performed document (progress.begin name) (.one place shape) final := by
        have less : (remaining.erase name).length < count := by
          have := List.length_erase_of_mem left
          have := List.length_pos_of_mem left
          omega
        exact exists_of_alike (smaller _ less performed here few _ rfl _ answers.begin)
      obtain ⟨shape', final, redone⟩ :=
        reference_again unambiguous records answers again here named among
      exact ⟨_, final, .one shape shape', redone⟩
    induction performed with
    | noObject noMap => exact fun progress _ => ⟨_, progress, .one _ _, .noObject noMap⟩
    | plain isMap whole _ ih =>
      intro progress answers
      obtain ⟨owner, needed, here⟩ := here
      have inside : Position document roots owner needed _ := .plain isMap whole here
      obtain ⟨_, final, redone⟩ := exists_of_alike (ih ⟨_, _, inside⟩ few progress answers)
      exact ⟨_, final, .one _ _, .plain isMap whole redone⟩
    | refers isMap refers _ ih =>
      intro progress answers
      obtain ⟨owner, needed, here⟩ := here
      have inside : Position document roots owner needed _ := .refers isMap refers here
      obtain ⟨_, final, redone⟩ := exists_of_alike (ih ⟨_, _, inside⟩ few progress answers)
      exact ⟨_, final, .one _ _, .refers isMap refers redone⟩
    | place unnamed found _ ih =>
      intro progress answers
      obtain ⟨owner, needed, here⟩ := here
      have inside : Position document roots owner needed _ := .place unnamed found here
      obtain ⟨_, final, redone⟩ := exists_of_alike (ih ⟨_, _, inside⟩ few progress answers)
      exact ⟨_, final, .one _ _, .place unnamed found redone⟩
    | known named kept =>
      obtain ⟨owner, needed, here⟩ := here
      have among := few _ (.inl (Option.isSome_of_eq_some kept))
      exact fun _ answers => reference answers here named among
    | cut named fresh waits =>
      obtain ⟨owner, needed, here⟩ := here
      exact fun _ answers => reference answers here named (few _ (.inr waits))
    | enter named =>
      obtain ⟨owner, needed, here⟩ := here
      refine fun _ answers => reference answers here named (few _ (.inl ?_))
      rw [knows_settle_ok, decide_eq_true rfl, Bool.true_or]
    | fixed planned => exact fun progress _ => ⟨_, progress, .one _ _, .fixed planned⟩
    | instead planned _ ih =>
      intro progress answers
      obtain ⟨owner, needed, here⟩ := here
      have inside : Position document roots owner needed _ := .instead planned here
      obtain ⟨_, final, redone⟩ := exists_of_alike (ih ⟨_, _, inside⟩ few progress answers)
      exact ⟨_, final, .one _ _, .instead planned redone⟩
    | list planned _ ih =>
      intro progress answers
      obtain ⟨owner, needed, here⟩ := here
      have inside : Position document roots owner false _ := .item planned here
      obtain ⟨_, final, redone⟩ := exists_of_alike (ih ⟨_, _, inside⟩ few progress answers)
      exact ⟨_, final, .one _ _, .list planned redone⟩
    | object planned made _ ih =>
      intro progress answers
      obtain ⟨owner, needed, here⟩ := here
      obtain ⟨_, final, alike, redone⟩ :=
        ih (here.ingredientsComeUp planned made) few progress answers
      cases alike with
      | all same =>
        obtain ⟨other, rfl⟩ := made.refill same
        exact ⟨_, final, .one _ _, .object planned other redone⟩
    | nil => exact fun progress _ => ⟨_, progress, .all rfl, .nil progress.warnings⟩
    | cons warnings first further ih ih' =>
      intro progress answers
      obtain ⟨_, middle, redone⟩ := exists_of_alike (ih (here _ (List.mem_cons_self ..))
        (fun name known => few name (further.keeps.answers known)) progress answers)
      have grown : Answers met middle remaining := fun name among =>
        (answers name among).imp redone.keeps.answers id
      obtain ⟨_, final, alike, redone'⟩ :=
        ih' (fun call among => here call (List.mem_cons_of_mem _ among)) few middle grown
      cases alike with
      | all same =>
        exact ⟨_, final, .all (by rw [List.map_cons, List.map_cons, same]),
          .cons progress.warnings redone redone'⟩

end

/-- Whether a progress is that after conversions of some of the given schemas, which all succeeded.
-/
inductive Succeeded (document : Value) (roots : Set Value) : Progress → Prop where
  | start : Succeeded document roots {}
  | step {progress final : Progress} {schema : Value} {shape : Shape}
    (before : Succeeded document roots progress) (member : schema ∈ roots)
    (ran : (shapeOf document schema).run progress = (.ok shape, final)) :
    Succeeded document roots final

section

variable {document : Value} {roots : Set Value} {progress : Progress}

theorem Succeeded.idle (succeeded : Succeeded document roots progress) : progress.pending = [] := by
  induction succeeded with
  | start => rfl
  | step _ _ ran ih => exact (performed_of_shapeAt ran).keeps.pending.trans ih

theorem Succeeded.onRecord (succeeded : Succeeded document roots progress) (name : String)
    (known : progress.knows name = true) : OnRecord document roots progress.answers name := by
  induction succeeded with
  | start => cases known
  | step _ member ran ih =>
    have performed := performed_of_shapeAt ran
    rcases performed.onRecord ⟨none, true, .root member⟩ name known with before | record
    · exact (ih before).mono fun other answers => performed.keeps.answers answers
    · exact record

/-- A schema that was converted after others can be converted at any progress. -/
theorem Succeeded.again (succeeded : Succeeded document roots progress)
    (unambiguous : Unambiguous document roots) (finite : document.isFinite = true)
    {schema : Value} (finiteSchema : schema.isFinite = true) (member : schema ∈ roots)
    {shape : Shape} {final : Progress}
    (ran : (shapeOf document schema).run progress = (.ok shape, final)) (other : Progress) :
    ∃ shape' final', (shapeOf document schema).run other = (.ok shape', final') := by
  have later : Succeeded document roots final := .step succeeded member ran
  have records (name : String) (answers : final.answers name) :
      OnRecord document roots final.answers name := by
    refine later.onRecord name (answers.resolve_right fun waits => ?_)
    rw [later.idle] at waits
    cases waits
  have left : Answers final.answers other (final.named.map Prod.fst) := fun name answers => by
    refine .inr (mem_keys_of_get? (answers.resolve_right fun waits => ?_))
    rw [later.idle] at waits
    cases waits
  obtain ⟨shape', final', redone⟩ := exists_of_alike ((performed_of_shapeAt ran).again unambiguous
    records ⟨none, true, .root member⟩ (fun _ answers => answers) _ other left)
  obtain ⟨warnings, ran'⟩ := redone.run finite finiteSchema
  exact ⟨shape', _, ran'⟩

end

end ApiBinding.OpenApi
