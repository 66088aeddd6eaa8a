import ApiBinding.Proofs.Entries
import ApiBinding.Proofs.OpenApi.Circle
import ApiBinding.Proofs.OpenApi.Mirror
import ApiBinding.Proofs.OpenApi.Recursion

/-!
Conversions that never end: where the conversion that minds its landmarks comes back to one of them,
plain recursion comes back to it again and again.
-/

namespace ApiBinding.OpenApi

open Relation (ReflTransGen TransGen)

/-- Whether the targets of all references on a trail never end, from where a conversion gave up and
above a given depth. -/
def Doomed (document : Value) (depth : Nat) (trail : Trail) (progress : Progress) : Prop :=
  ∀ reference target, .reference reference ∈ trail → referenced document reference = .ok target →
    ∀ below < depth, ∀ other, Alike progress other →
      ((plainShape document below target).run other).1 = .error endless

theorem Doomed.shallower {document : Value} {depth below : Nat} {trail : Trail}
    {progress : Progress} (h : Doomed document depth trail progress) (le : below ≤ depth) :
    Doomed document below trail progress :=
  fun reference target member found deep less =>
    h reference target member found deep (Nat.lt_of_lt_of_le less le)

/-- Whether both conversions go along with one another, down to these depths. -/
abbrev ShapesMirror (document root : Value) (pending : List String) (trail : Trail)
    (depth below : Nat) (schema : Value) : Prop :=
  Mirrors pending (MeetsCircle document root) (Doomed document below trail)
    (shapeAt document depth trail schema) (plainShape document below schema)

section

variable {document : Value} {first second : Converter} {trail trail' : Trail}
  {reference name other : String} {pending : List String} {progress after : Progress}
  {result : Except Failure Shape}

theorem knows_settle_ok {shape : Shape} :
    (progress.settle name (.ok shape)).knows other =
      (decide (name = other) || progress.knows other) := by
  show (Entries.get? (· == ·) other (Entries.put (· == ·) name shape progress.named)).isSome = _
  rw [Entries.get?_put]
  by_cases same : name = other <;> simp [same, Progress.knows]

theorem pending_settle : (progress.settle name result).pending = progress.pending.erase name := by
  cases result <;> rfl

theorem Alike.begin {other : Progress} (h : Alike progress other) (name : String) :
    Alike (progress.begin name) (other.begin name) :=
  ⟨congrArg (List.cons name) h.pending, h.knows⟩

theorem Alike.settle {other : Progress} (h : Alike progress other) {shape shape' : Shape} :
    Alike (progress.settle name (.ok shape)) (other.settle name (.ok shape')) :=
  ⟨by rw [pending_settle, pending_settle, h.pending],
    fun name => by rw [knows_settle_ok, knows_settle_ok, h.knows]⟩

theorem Advances.settle (fresh : name ∉ progress.pending)
    (h : Advances (progress.begin name) after) :
    Advances progress (after.settle name result) := by
  refine ⟨⟨?_, fun other known => ?_⟩, fun other member known => ?_⟩
  · rw [pending_settle, h.pending]
    exact List.erase_cons_head ..
  · have known := h.knows other known
    cases result with
    | error => exact known
    | ok shape => rw [knows_settle_ok, known, Bool.or_true]
  · refine h.waits other (List.mem_cons_of_mem name member) ?_
    cases result with
    | error => exact known
    | ok shape =>
      have different : name ≠ other := by
        rintro rfl
        exact fresh member
      rwa [knows_settle_ok, decide_eq_false different, Bool.false_or] at known

/-- Whether a reference by name needs no conversion of its target. -/
def Progress.answers (progress : Progress) (name : String) : Prop :=
  progress.knows name = true ∨ name ∈ progress.pending

theorem not_answers {name : String} (fresh : Entries.get? (· == ·) name progress.named = none)
    (idle : name ∉ progress.pending) : ¬progress.answers name := by
  rintro (known | waits)
  · rw [Progress.knows, fresh] at known
    cases known
  · exact idle waits

theorem run_named_of_answers {shapeOf : Converter} (named : namedSchema? reference = some name)
    (answers : progress.answers name) :
    ∃ shape, (referenceShape document shapeOf trail reference).run progress =
      (.ok shape, progress) := by
  rw [run_referenceShape named]
  cases kept : Entries.get? (· == ·) name progress.named with
  | some shape => exact ⟨shape, rfl⟩
  | none =>
    rcases answers with known | waits
    · rw [Progress.knows, kept] at known
      cases known
    · exact ⟨_, if_pos (List.contains_iff_mem.mpr waits)⟩

theorem run_named_of_not_answers {shapeOf : Converter} (named : namedSchema? reference = some name)
    (unanswered : ¬progress.answers name) :
    (referenceShape document shapeOf trail reference).run progress =
      let target := (targetShape document shapeOf reference name).run (progress.begin name)
      (target.1, target.2.settle name target.1) := by
  obtain ⟨unknown, fresh⟩ := not_or.mp unanswered
  rw [run_referenceShape named, Option.not_isSome_iff_eq_none.mp unknown]
  exact if_neg fun waits => fresh (List.contains_iff_mem.mp waits)

theorem named_cases {shapeOf : Converter} (named : namedSchema? reference = some name)
    (ran : (referenceShape document shapeOf trail reference).run progress = (result, after)) :
    (progress.answers name ∧ (∃ shape, result = .ok shape) ∧ after = progress) ∨
      (¬progress.answers name ∧ ∃ final,
        (targetShape document shapeOf reference name).run (progress.begin name) = (result, final) ∧
          after = final.settle name result) := by
  by_cases answers : progress.answers name
  · obtain ⟨shape, ran'⟩ := run_named_of_answers named answers
    cases ran'.symm.trans ran
    exact .inl ⟨answers, ⟨shape, rfl⟩, rfl⟩
  · rw [run_named_of_not_answers named answers] at ran
    cases ran
    exact .inr ⟨answers, _, rfl, rfl⟩

theorem Alike.answers {other : Progress} (h : Alike progress other) :
    other.answers name ↔ progress.answers name := by
  rw [Progress.answers, Progress.answers, h.knows, h.pending]

theorem Grows.answers {later : Progress} (h : Grows progress later)
    (answers : progress.answers name) : later.answers name :=
  answers.imp (h.knows name) fun waits => h.pending ▸ waits

theorem repeats_of_answers (named : namedSchema? reference = some name)
    (answers : progress.answers name) :
    Repeats (referenceShape document second trail' reference) progress progress := by
  constructor
  · intro other alike
    obtain ⟨shape, ran⟩ := run_named_of_answers named (alike.answers.mpr answers)
    exact .inr ⟨shape, other, ran, alike⟩
  · intro other grows
    obtain ⟨shape, ran⟩ := run_named_of_answers named (grows.answers answers)
    exact .inr ⟨shape, other, ran, .refl other⟩

theorem repeats_settle (named : namedSchema? reference = some name)
    (unanswered : ¬progress.answers name) {final : Progress} {shape : Shape}
    (target : Repeats (targetShape document second reference name) (progress.begin name) final) :
    Repeats (referenceShape document second trail' reference) progress
      (final.settle name (.ok shape)) := by
  constructor
  · intro other alike
    rw [Leaves, run_named_of_not_answers named (mt alike.answers.mp unanswered)]
    rcases target.again _ (alike.begin name) with stopped | ⟨a, after, ran, alike⟩
    · exact .inl stopped
    · rw [ran]
      exact .inr ⟨a, _, rfl, alike.settle⟩
  · intro other grows
    have known : (final.settle name (.ok shape)).knows name = true := by
      rw [knows_settle_ok, decide_eq_true rfl, Bool.true_or]
    obtain ⟨shape, ran⟩ := run_named_of_answers named (.inl (grows.knows name known))
    exact .inr ⟨shape, other, ran, .refl other⟩

theorem diverges_settle (named : namedSchema? reference = some name)
    (unanswered : ¬progress.answers name) {final : Progress}
    (advances : Advances (progress.begin name) final)
    (target : Diverges (targetShape document second reference name) (progress.begin name) final) :
    Diverges (referenceShape document second trail' reference) progress
      (final.settle name (.error endless)) := by
  obtain ⟨unknown, fresh⟩ := not_or.mp unanswered
  constructor
  · intro other alike
    rw [run_named_of_not_answers named (mt alike.answers.mp unanswered)]
    exact target.again _ (alike.begin name)
  · intro other alike
    have pending : other.pending = progress.pending :=
      alike.pending.trans (advances.settle fresh).pending
    -- The name was pending all the time, so its shape is not known.
    have unknown : ¬other.knows name = true := fun known =>
      unknown (advances.waits name (List.mem_cons_self ..) (by rwa [alike.knows] at known))
    have alike : Alike final (other.begin name) :=
      ⟨(congrArg (List.cons name) pending).trans advances.pending.symm, alike.knows⟩
    have unanswered : ¬other.answers name :=
      not_or.mpr ⟨unknown, by rwa [pending]⟩
    rw [run_named_of_not_answers named unanswered]
    exact target.later _ alike

/-- References to a name go along with one another if its targets do, where these are converted. -/
theorem named_mirrors (named : namedSchema? reference = some name) {circle : Prop}
    {doomed : Progress → Prop}
    (targets : name ∉ pending → Mirrors (name :: pending) circle (fun _ => True)
      (targetShape document first reference name) (targetShape document second reference name)) :
    Mirrors pending circle doomed (referenceShape document first trail reference)
      (referenceShape document second trail' reference) := by
  have targets {progress : Progress} (same : progress.pending = pending)
      (unanswered : ¬progress.answers name) := targets fun waits => unanswered (.inr (same ▸ waits))
  have begins {progress : Progress} (same : progress.pending = pending) :
      (progress.begin name).pending = name :: pending := congrArg (List.cons name) same
  refine ⟨fun same ran => ?_, fun same ran => ?_, fun same ran => ?_, fun same ran _ => ?_⟩
  · rcases named_cases named ran with ⟨_, _, rfl⟩ | ⟨unanswered, final, inner, rfl⟩
    · exact .refl _
    · have advances := (targets same unanswered).advances (begins same) inner
      exact advances.settle (not_or.mp unanswered).2
  · rcases named_cases named ran with ⟨answers, _, rfl⟩ | ⟨unanswered, final, inner, rfl⟩
    · exact repeats_of_answers named answers
    · have repeats := (targets same unanswered).repeats (begins same) inner
      exact repeats_settle named unanswered repeats
  · rcases named_cases named ran with ⟨_, ⟨_, h⟩, _⟩ | ⟨unanswered, final, inner, rfl⟩
    · cases h
    · exact (targets same unanswered).circles (begins same) inner
  · rcases named_cases named ran with ⟨_, ⟨_, h⟩, _⟩ | ⟨unanswered, final, inner, rfl⟩
    · cases h
    · have target := targets same unanswered
      exact diverges_settle named unanswered (target.advances (begins same) inner)
        (target.diverges (begins same) inner trivial)

end

section

variable {document root : Value} {depth : Nat}
  (mirrors : ∀ pending trail schema, OnTheWay document root pending trail schema →
    workLeft document root pending trail schema < depth →
    ∀ below, ShapesMirror document root pending trail depth below schema)
  {pending : List String} {trail : Trail} {schema target : Value} {reference name : String}
  {below : Nat}

include mirrors

theorem inlineShape_mirrors (way : OnTheWay document root pending trail schema)
    (enough : workLeft document root pending trail schema ≤ depth)
    (isMap : schema.isMap = true) (whole : schema.get referenceKey = .null)
    (name : Option String) :
    Mirrors pending (MeetsCircle document root) (Doomed document below trail)
      (inlineShape (shapeAt document depth) trail schema name)
      (inlineShape (fun _ => plainShape document below) [] schema name) := by
  have parts (part : Value) (h : Part schema part) :
      (Mirrors.comparison pending (MeetsCircle document root) (Doomed document below trail)).holds
        (shapeAt document depth trail part) (plainShape document below part) := by
    obtain ⟨way, less⟩ := way.descend ⟨isMap, whole, h⟩
    exact mirrors pending trail part way (Nat.lt_of_lt_of_le less enough) below
  exact (Mirrors.comparison ..).inlineShape parts name

theorem targetShape_mirrors (finite : document.isFinite = true)
    (way : OnTheWay document root pending trail schema)
    (enough : workLeft document root pending trail schema ≤ depth)
    (refers : schema.get referenceKey = .text reference)
    (named : namedSchema? reference = some name) (fresh : name ∉ pending) :
    Mirrors (name :: pending) (MeetsCircle document root) (Doomed document below [])
      (targetShape document (shapeAt document depth) reference name)
      (targetShape document (fun _ => plainShape document below) reference name) := by
  refine Mirrors.lift referenced_ordinary fun target found => ?_
  obtain ⟨way, less⟩ := way.enter finite refers named found fresh
  have enough := Nat.lt_of_lt_of_le less enough
  split
  next isMap =>
    split
    next => exact mirrors _ [] target way enough below
    next whole =>
      have whole : target.get referenceKey = .null := by
        rw [Value.get, Option.not_isSome_iff_eq_none.mp whole]
        rfl
      exact inlineShape_mirrors mirrors way (Nat.le_of_lt enough) isMap whole (some name)
  next => exact Mirrors.fail (by simp [IsOrdinary]) _

/-- What was passed never ends, if its target does not end where a conversion gave up. -/
theorem doomed_of_target (finite : document.isFinite = true)
    (way : OnTheWay document root pending trail schema)
    (enough : workLeft document root pending trail schema ≤ depth)
    (refers : schema.get referenceKey = .text reference) (unnamed : namedSchema? reference = none)
    (found : referenced document reference = .ok target) (fresh : .reference reference ∉ trail)
    {progress after : Progress} (same : progress.pending = pending)
    (ran : (shapeAt document depth (.reference reference :: trail) target).run progress =
      (.error endless, after))
    (doom : Doomed document (below + 1) trail after) :
    Doomed document below (.reference reference :: trail) after := by
  obtain ⟨way, less⟩ := way.follow finite refers unnamed found fresh
  have enough := Nat.lt_of_lt_of_le less enough
  suffices h : ∀ less ≤ below, Doomed document less (.reference reference :: trail) after from
    h below (Nat.le_refl below)
  intro less
  induction less with
  | zero => exact fun _ _ _ _ _ _ below => nomatch below
  | succ less ih =>
    intro le other place member leads deep small progress alike
    rcases List.mem_cons.mp member with here | member
    · obtain rfl := Landmark.reference.inj here
      obtain rfl := Except.ok.inj (found.symm.trans leads)
      have doom := (ih (by omega)).shallower (Nat.le_of_lt_succ small)
      exact ((mirrors _ _ _ way enough deep).diverges same ran doom).later progress alike
    · exact doom other place member leads deep (by omega) progress alike

theorem referenceShape_unnamed (finite : document.isFinite = true)
    (way : OnTheWay document root pending trail schema)
    (enough : workLeft document root pending trail schema ≤ depth)
    (refers : schema.get referenceKey = .text reference)
    (unnamed : namedSchema? reference = none) :
    Mirrors pending (MeetsCircle document root) (Doomed document (below + 1) trail)
      (referenceShape document (shapeAt document depth) trail reference)
      (referenceShape document (fun _ => plainShape document below) [] reference) := by
  rw [referenceShape_of_none unnamed, referenceShape_of_none unnamed]
  by_cases met : .reference reference ∈ trail
  · have loop := way.trailed reference met reference ⟨schema, .refl, refers⟩ unnamed
    obtain ⟨_, ⟨_, _, target, found, _⟩, _⟩ := TransGen.head'_iff.mp loop
    have passed : trail.passing (.reference reference) = .error endless := by
      simp [Trail.passing, met]
    rw [passed, found]
    have stays {progress after : Progress} {result}
        (ran : (throw endless : Conversion Shape).run progress = (result, after)) :
        after = progress := (congrArg Prod.snd ran).symm
    refine ⟨fun _ ran => ?_, fun _ ran => ?_, fun _ _ => ?_, fun _ ran doom => ?_⟩
    · obtain rfl := stays ran
      exact .refl _
    · cases ran
    · exact ⟨schema, reference, way.reached, refers, loop⟩
    · obtain rfl := stays ran
      have ends := doom reference target met found below (Nat.lt_succ_self below)
      exact ⟨ends, ends⟩
  · have passed : trail.passing (.reference reference) = .ok (.reference reference :: trail) := by
      simp [Trail.passing, met]
    rw [passed]
    change Mirrors _ _ _ (liftM (referenced document reference) >>=
      shapeAt document depth (.reference reference :: trail)) _
    refine Mirrors.lift referenced_ordinary fun target found => ?_
    obtain ⟨further, less⟩ := way.follow finite refers unnamed found met
    have h := mirrors _ _ target further (Nat.lt_of_lt_of_le less enough) below
    exact ⟨h.advances, h.repeats, h.circles, fun same ran doom => h.diverges same ran
      (doomed_of_target mirrors finite way enough refers unnamed found met same ran doom)⟩

theorem referenceShape_named (finite : document.isFinite = true)
    (way : OnTheWay document root pending trail schema)
    (enough : workLeft document root pending trail schema ≤ depth)
    (refers : schema.get referenceKey = .text reference)
    (named : namedSchema? reference = some name) {doomed : Progress → Prop} :
    Mirrors pending (MeetsCircle document root) doomed
      (referenceShape document (shapeAt document depth) trail reference)
      (referenceShape document (fun _ => plainShape document below) [] reference) := by
  refine named_mirrors named fun fresh => ?_
  refine (targetShape_mirrors mirrors finite way enough refers named fresh).mono fun _ _ => ?_
  exact fun _ _ member => nomatch member

theorem referenceShape_mirrors (finite : document.isFinite = true)
    (way : OnTheWay document root pending trail schema)
    (enough : workLeft document root pending trail schema ≤ depth)
    (refers : schema.get referenceKey = .text reference) :
    Mirrors pending (MeetsCircle document root) (Doomed document (below + 1) trail)
      (referenceShape document (shapeAt document depth) trail reference)
      (referenceShape document (fun _ => plainShape document below) [] reference) := by
  cases named : namedSchema? reference with
  | none => exact referenceShape_unnamed mirrors finite way enough refers named
  | some name => exact referenceShape_named mirrors finite way enough refers named

theorem shapeStep_mirrors (finite : document.isFinite = true)
    (way : OnTheWay document root pending trail schema)
    (enough : workLeft document root pending trail schema ≤ depth) :
    ShapesMirror document root pending trail (depth + 1) (below + 1) schema := by
  have into (trail : Trail) : trail.into schema = .ok trail := by
    have finite := way.finite
    cases schema with
    | knot => cases finite
    | _ => rfl
  rw [ShapesMirror, shapeAt, plainShape, shapeStep, shapeStep, into, into]
  split
  next => exact Mirrors.pure _ _
  next isMap =>
    have isMap : schema.isMap = true := by simpa using isMap
    split
    next whole =>
      refine (inlineShape_mirrors mirrors way enough isMap whole none).mono fun _ doom => ?_
      exact doom.shallower (Nat.le_succ below)
    next reference refers =>
      exact (referenceShape_mirrors mirrors finite way enough refers).bind fun _ _ =>
        Mirrors.pure _ _
    next => exact Mirrors.fail (by simp [IsOrdinary]) _
    next => exact Mirrors.fail (by simp [IsOrdinary]) _

end

theorem shapeAt_mirrors {document root : Value} (finite : document.isFinite = true) (depth : Nat) :
    ∀ pending trail schema, OnTheWay document root pending trail schema →
      workLeft document root pending trail schema < depth →
      ∀ below, ShapesMirror document root pending trail depth below schema := by
  induction depth with
  | zero => exact fun _ _ _ _ h => nomatch h
  | succ depth ih =>
    intro pending trail schema way enough below
    have enough := Nat.le_of_lt_succ enough
    cases below with
    | zero =>
      have deeper : ShapesMirror document root pending trail (depth + 1) (0 + 1) schema :=
        shapeStep_mirrors ih finite way enough
      exact deeper.stop
    | succ below => exact shapeStep_mirrors ih finite way enough

section

variable {document schema : Value} (finite : document.isFinite = true)
  (finiteSchema : schema.isFinite = true) {progress : Progress}

include finite finiteSchema

/-- A conversion that gives up goes on forever by plain recursion. -/
theorem plainShape_of_endless
    (stopped : ((shapeOf document schema).run progress).1 = .error endless) :
    MeetsCircle document schema ∧
      ∀ depth, ((plainShape document depth schema).run progress).1 = .error endless := by
  have way : OnTheWay document schema progress.pending [] schema := .start finiteSchema
  have mirrors := shapeAt_mirrors finite _ _ _ _ way way.workLeft_lt
  have ran : (shapeOf document schema).run progress =
      (.error endless, ((shapeOf document schema).run progress).2) := Prod.ext stopped rfl
  refine ⟨(mirrors 0).circles rfl ran, fun depth => ?_⟩
  have diverges := (mirrors depth).diverges rfl ran fun _ _ member => nomatch member
  exact diverges.again progress (.refl progress)

/-- The conversion of a schema ends, in a shape or an ordinary failure, at a depth bounded by the
size of the document, unless it comes upon a circle of references that name no schemas: then plain
recursion goes down to any depth. -/
theorem shapeOf_ends_or_circles (progress : Progress) :
    let run := (shapeOf document schema).run progress
    (run.1 ≠ .error endless ∧ ∀ depth, depthBound document schema ≤ depth →
        (plainShape document depth schema).run progress = run) ∨
      (MeetsCircle document schema ∧ ∀ depth,
        ((plainShape document depth schema).run progress).1 = .error endless) := by
  intro run
  by_cases stopped : run.1 = .error endless
  · exact .inr (plainShape_of_endless finite finiteSchema stopped)
  · left
    refine ⟨stopped, fun depth deep => ?_⟩
    have same := (shapeAt_continues_plainShape document (depthBound document schema) [] schema
      progress).resolve_left stopped
    have deeper := plainShape_continues document deep schema progress
    rw [same] at deeper
    exact deeper.resolve_left stopped

end

theorem people_end :
    ((shapeOf people (referTo "Person")).run {}).1 ≠ .error endless ∧
      ∀ depth, depthBound people (referTo "Person") ≤ depth →
        (plainShape people depth (referTo "Person")).run {} =
          (shapeOf people (referTo "Person")).run {} := by
  have finite : people.isFinite = true := by decide
  have finiteSchema : (referTo "Person").isFinite = true := by decide
  have shaped : ((plainShape people 9 (referTo "Person")).run {}).1.isOk = true := by
    decide +kernel
  rcases shapeOf_ends_or_circles finite finiteSchema {} with ends | ⟨_, never⟩
  · exact ends
  · rw [never 9] at shaped
    cases shaped

/-- Where a reference leads that names a property of a schema. -/
def belowProperty : Value := mapping [("$ref", .text "#/components/schemas/A/properties/b")]

/-- A schema one of whose properties is a list of such. -/
def nested : Value :=
  withSchemas [("A", objectWith [("b", mapping [("type", .text "array"),
    ("items", belowProperty)])])]

/-- The conversion of a property that is a list of itself goes down to any depth. -/
theorem belowProperty_endless :
    (nested.isFinite = true ∧ belowProperty.isFinite = true) ∧
      ∀ depth, ((plainShape nested depth belowProperty).run {}).1 = .error endless := by
  have finite : nested.isFinite = true := by decide
  have finiteSchema : belowProperty.isFinite = true := by decide
  have stopped : ((shapeOf nested belowProperty).run {}).1.map (fun _ => ()) = .error endless := by
    decide +kernel
  have stopped : ((shapeOf nested belowProperty).run {}).1 = .error endless := by
    cases ran : ((shapeOf nested belowProperty).run {}).1 with
    | error failure =>
      rw [ran] at stopped
      exact congrArg _ (Except.error.inj stopped)
    | ok shape =>
      rw [ran] at stopped
      cases stopped
  exact ⟨⟨finite, finiteSchema⟩, (plainShape_of_endless finite finiteSchema stopped).2⟩

end ApiBinding.OpenApi
