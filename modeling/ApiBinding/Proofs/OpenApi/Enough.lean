import ApiBinding.Proofs.OpenApi.Session

/-!
Depths that are enough: above the bound on the work that is left, how deep a conversion may go makes
no difference to what it does.
-/

namespace ApiBinding.OpenApi

/-- Whether two conversions do the same wherever the given names are known or pending, and the first
one leaves every such name so. -/
structure SameWhile {α : Type} (pending : List String) (first second : Conversion α) : Prop where
  same : ∀ progress : Progress, (∀ name ∈ pending, progress.answers name) →
    second.run progress = first.run progress
  kept : ∀ (progress : Progress) (name : String), progress.answers name →
    (first.run progress).2.answers name

namespace SameWhile

variable {α β : Type} {pending : List String}

theorem refl {conversion : Conversion α}
    (kept : ∀ (progress : Progress) (name : String), progress.answers name →
      (conversion.run progress).2.answers name) : SameWhile pending conversion conversion :=
  ⟨fun _ _ => rfl, kept⟩

theorem pure (a : α) : SameWhile pending (pure a) (pure a) := refl fun _ _ answers => answers

theorem fail (failure : Failure) :
    SameWhile pending (throw failure : Conversion α) (throw failure) :=
  refl fun _ _ answers => answers

theorem bind {first first' : Conversion α} {next next' : α → Conversion β}
    (here : SameWhile pending first first') (rest : ∀ a, SameWhile pending (next a) (next' a)) :
    SameWhile pending (first >>= next) (first' >>= next') := by
  constructor
  · intro progress answered
    rw [Conversion.run_bind, Conversion.run_bind, here.same progress answered]
    rcases ran : first.run progress with ⟨failure | a, after⟩
    · rfl
    · refine (rest a).same after fun name member => ?_
      have answers := here.kept progress name (answered name member)
      rwa [ran] at answers
  · intro progress name answers
    have answers := here.kept progress name answers
    rcases ran : first.run progress with ⟨failure | a, after⟩
    · rw [ran] at answers
      rwa [Conversion.run_bind_error ran]
    · rw [ran] at answers
      rw [Conversion.run_bind_ok ran]
      exact (rest a).kept after name answers

def agreement (pending : List String) : Agreement where
  holds := SameWhile pending
  pure := .pure
  fail := .fail
  warn _ := refl fun _ _ answers => answers
  bind := .bind

end SameWhile

theorem Keeps.answers {progress later : Progress} (keeps : Keeps progress later) {name : String}
    (answers : progress.answers name) : later.answers name := by
  refine answers.imp (fun known => ?_) fun waits => keeps.pending ▸ waits
  obtain ⟨shape, kept⟩ := Option.isSome_iff_exists.mp known
  rw [Progress.knows, keeps.named name shape kept]
  rfl

theorem referenceShape_answers (document : Value) (depth : Nat) (trail : Trail)
    (reference : String) (progress : Progress) (name : String) (answers : progress.answers name) :
    ((referenceShape document (shapeAt document depth) trail reference).run
      progress).2.answers name :=
  ((steady_keeps document).referenceShape
    (fun trail schema => (recalls_shapeAt document depth trail schema).keeps) trail reference
    progress).answers answers

section

variable {document root : Value} {depth deeper : Nat}
  (enoughs : ∀ pending trail schema, OnTheWay document root pending trail schema →
    workLeft document root pending trail schema < depth →
    workLeft document root pending trail schema < deeper →
    SameWhile pending (shapeAt document depth trail schema) (shapeAt document deeper trail schema))
  {pending : List String} {trail : Trail} {schema : Value} {reference name : String}

include enoughs

theorem sameWhile_inlineShape (way : OnTheWay document root pending trail schema)
    (enough : workLeft document root pending trail schema ≤ depth)
    (enough' : workLeft document root pending trail schema ≤ deeper)
    (isMap : schema.isMap = true) (whole : schema.get referenceKey = .null)
    (name : Option String) :
    SameWhile pending (inlineShape (shapeAt document depth) trail schema name)
      (inlineShape (shapeAt document deeper) trail schema name) := by
  have parts (part : Value) (h : Part schema part) :
      (SameWhile.agreement pending).comparison.holds (shapeAt document depth trail part)
        (shapeAt document deeper trail part) := by
    obtain ⟨way, less⟩ := way.descend ⟨isMap, whole, h⟩
    exact enoughs pending trail part way (by omega) (by omega)
  exact (SameWhile.agreement pending).comparison.inlineShape parts name

theorem sameWhile_targetShape (finite : document.isFinite = true)
    (way : OnTheWay document root pending trail schema)
    (enough : workLeft document root pending trail schema ≤ depth)
    (enough' : workLeft document root pending trail schema ≤ deeper)
    (refers : schema.get referenceKey = .text reference)
    (named : namedSchema? reference = some name) (fresh : name ∉ pending) :
    SameWhile (name :: pending) (targetShape document (shapeAt document depth) reference name)
      (targetShape document (shapeAt document deeper) reference name) := by
  refine (SameWhile.agreement _).comparison.lift referenced_ordinary fun target found => ?_
  obtain ⟨way, less⟩ := way.enter finite refers named found fresh
  split
  next isMap =>
    split
    next => exact enoughs _ [] target way (by omega) (by omega)
    next whole =>
      have whole : target.get referenceKey = .null := by
        rw [Value.get, Option.not_isSome_iff_eq_none.mp whole]
        rfl
      exact sameWhile_inlineShape enoughs way (by omega) (by omega) isMap whole (some name)
  next => exact .fail _

theorem sameWhile_referenceShape (finite : document.isFinite = true)
    (way : OnTheWay document root pending trail schema)
    (enough : workLeft document root pending trail schema ≤ depth)
    (enough' : workLeft document root pending trail schema ≤ deeper)
    (refers : schema.get referenceKey = .text reference) :
    SameWhile pending (referenceShape document (shapeAt document depth) trail reference)
      (referenceShape document (shapeAt document deeper) trail reference) := by
  refine ⟨fun progress answered => ?_, referenceShape_answers document depth trail reference⟩
  cases named : namedSchema? reference with
  | none =>
    rw [referenceShape_of_none named, referenceShape_of_none named, Conversion.run_lift_bind,
      Conversion.run_lift_bind]
    by_cases met : .reference reference ∈ trail
    · have passed : trail.passing (.reference reference) = .error endless := by
        simp [Trail.passing, met]
      rw [passed]
    · have passed : trail.passing (.reference reference) =
          .ok (.reference reference :: trail) := by
        simp [Trail.passing, met]
      rw [passed]
      dsimp only
      rw [Conversion.run_lift_bind, Conversion.run_lift_bind]
      cases found : referenced document reference with
      | error failure => rfl
      | ok target =>
        obtain ⟨way, less⟩ := way.follow finite refers named found met
        exact (enoughs _ _ target way (by omega) (by omega)).same progress answered
  | some name =>
    by_cases answers : progress.answers name
    · rw [run_referenceShape named, run_referenceShape named]
      cases kept : Entries.get? (· == ·) name progress.named with
      | some shape => rfl
      | none =>
        have waits : progress.pending.contains name = true := contains_of_answers answers kept
        simp only [if_pos waits]
    · have fresh : name ∉ pending := fun member => answers (answered name member)
      have same : SameWhile (name :: pending)
          (targetShape document (shapeAt document depth) reference name)
          (targetShape document (shapeAt document deeper) reference name) :=
        sameWhile_targetShape enoughs finite way enough enough' refers named fresh
      rw [run_named_of_not_answers named answers, run_named_of_not_answers named answers]
      rw [same.same (progress.begin name)]
      intro other member
      rcases List.mem_cons.mp member with rfl | member
      · exact .inr (List.mem_cons_self ..)
      · exact (answered other member).imp id fun waits => List.mem_cons_of_mem name waits

end

/-- Two depths that are both enough for the work that is left make no difference. -/
theorem sameWhile_shapeAt {document root : Value} (finite : document.isFinite = true)
    (depth : Nat) : ∀ deeper pending trail schema, OnTheWay document root pending trail schema →
      workLeft document root pending trail schema < depth →
      workLeft document root pending trail schema < deeper →
      SameWhile pending (shapeAt document depth trail schema)
        (shapeAt document deeper trail schema) := by
  induction depth with
  | zero => exact fun _ _ _ _ _ h => nomatch h
  | succ depth ih =>
    intro deeper pending trail schema way enough enough'
    obtain ⟨deeper, rfl⟩ : ∃ n, deeper = n + 1 := ⟨deeper - 1, by omega⟩
    have into (trail : Trail) : trail.into schema = .ok trail := by
      have finite := way.finite
      cases schema with
      | knot => cases finite
      | _ => rfl
    have enough := Nat.le_of_lt_succ enough
    have enough' := Nat.le_of_lt_succ enough'
    rw [shapeAt, shapeAt, shapeStep, shapeStep, into]
    split
    next => exact .pure _
    next isMap =>
      have isMap : schema.isMap = true := by simpa using isMap
      split
      next whole => exact sameWhile_inlineShape (ih deeper) way enough enough' isMap whole none
      next reference refers =>
        exact (sameWhile_referenceShape (ih deeper) finite way enough enough' refers).bind
          fun _ => .pure _
      next => exact .fail _
      next => exact .fail _

/-- At any depth above the bound a schema is converted alike. -/
theorem run_shapeAt_of_le {document schema : Value} (finite : document.isFinite = true)
    (finiteSchema : schema.isFinite = true) {depth : Nat}
    (deep : depthBound document schema ≤ depth) (progress : Progress) :
    (shapeAt document depth [] schema).run progress = (shapeOf document schema).run progress := by
  have way : OnTheWay document schema progress.pending [] schema := .start finiteSchema
  have enough := way.workLeft_lt
  exact (sameWhile_shapeAt finite _ depth _ [] schema way enough (by omega)).same progress
    fun name waits => .inr waits

end ApiBinding.OpenApi
