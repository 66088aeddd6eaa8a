import ApiBinding.Proofs.OpenApi.Comparison
import ApiBinding.Proofs.OpenApi.Keeping

/-!
A plain conversion beside one that minds its landmarks: it may begin wherever the same names are
known and pending, and knows of more names later on, since no shape decides what is converted next.
-/

namespace ApiBinding.OpenApi

def Progress.knows (progress : Progress) (name : String) : Bool :=
  (Entries.get? (· == ·) name progress.named).isSome

/-- Whether a conversion takes the same way from both: the same names are pending and the same names
have shapes. -/
structure Alike (progress other : Progress) : Prop where
  pending : other.pending = progress.pending
  knows : ∀ name, other.knows name = progress.knows name

/-- Whether no name is known that was not known before, and those before are known still. -/
structure Grows (progress later : Progress) : Prop where
  pending : later.pending = progress.pending
  knows : ∀ name, progress.knows name = true → later.knows name = true

/-- Whether a conversion may lead from one to the other: no name is known while it is pending. -/
structure Advances (progress later : Progress) : Prop extends Grows progress later where
  waits : ∀ name ∈ progress.pending, later.knows name = true → progress.knows name = true

section

variable {first second third : Progress}

theorem Alike.refl (progress : Progress) : Alike progress progress := ⟨rfl, fun _ => rfl⟩

theorem Alike.symm (h : Alike first second) : Alike second first :=
  ⟨h.pending.symm, fun name => (h.knows name).symm⟩

theorem Alike.trans (h : Alike first second) (h' : Alike second third) : Alike first third :=
  ⟨h'.pending.trans h.pending, fun name => (h'.knows name).trans (h.knows name)⟩

theorem Alike.grows (h : Alike first second) : Grows first second :=
  ⟨h.pending, fun name known => by rw [h.knows, known]⟩

theorem Grows.trans (h : Grows first second) (h' : Grows second third) : Grows first third :=
  ⟨h'.pending.trans h.pending, fun name known => h'.knows name (h.knows name known)⟩

theorem Advances.refl (progress : Progress) : Advances progress progress :=
  ⟨(Alike.refl progress).grows, fun _ _ known => known⟩

theorem Advances.trans (h : Advances first second) (h' : Advances second third) :
    Advances first third :=
  ⟨h.toGrows.trans h'.toGrows, fun name member known =>
    h.waits name member (h'.waits name (by rwa [h.pending]) known)⟩

end

theorem stopped_bind {α β : Type} {first : Conversion α} {next : α → Conversion β}
    {progress : Progress} (h : (first.run progress).1 = .error endless) :
    ((first >>= next).run progress).1 = .error endless := by
  have ran : first.run progress = (.error endless, (first.run progress).2) := Prod.ext h rfl
  rw [Conversion.run_bind_error ran]

/-- Whether a conversion never ends, or ends in a result and leaves such a progress. -/
def Leaves {α : Type} (conversion : Conversion α) (progress goal : Progress) : Prop :=
  (conversion.run progress).1 = .error endless ∨
    ∃ a after, conversion.run progress = (.ok a, after) ∧ Alike goal after

theorem Leaves.from_alike {α : Type} {conversion : Conversion α} {progress goal goal' : Progress}
    (h : Leaves conversion progress goal) (alike : Alike goal' goal) :
    Leaves conversion progress goal' := by
  rcases h with stopped | ⟨a, after, ran, alike'⟩
  · exact .inl stopped
  · exact .inr ⟨a, after, ran, alike.trans alike'⟩

theorem Leaves.bind {α β : Type} {first : Conversion α} {next : α → Conversion β}
    {progress goal goal' : Progress} (here : Leaves first progress goal)
    (rest : ∀ a after, Alike goal after → Leaves (next a) after goal') :
    Leaves (first >>= next) progress goal' := by
  rcases here with stopped | ⟨a, after, ran, alike⟩
  · exact .inl (stopped_bind stopped)
  · rw [Leaves, Conversion.run_bind_ok ran]
    exact rest a after alike

theorem Leaves.bind_stopped {α β : Type} {first : Conversion α} {next : α → Conversion β}
    {progress goal : Progress} (here : Leaves first progress goal)
    (rest : ∀ a after, Alike goal after → ((next a).run after).1 = .error endless) :
    ((first >>= next).run progress).1 = .error endless := by
  rcases here with stopped | ⟨a, after, ran, alike⟩
  · exact stopped_bind stopped
  · rw [Conversion.run_bind_ok ran]
    exact rest a after alike

/-- What the second conversion does where the first one gives a result. -/
structure Repeats {α : Type} (conversion : Conversion α) (before after : Progress) : Prop where
  again : ∀ progress, Alike before progress → Leaves conversion progress after
  later : ∀ progress, Grows after progress → Leaves conversion progress progress

/-- The second conversion never ends, wherever the first one began and wherever it gave up. -/
structure Diverges {α : Type} (conversion : Conversion α) (before after : Progress) : Prop where
  again : ∀ progress, Alike before progress → (conversion.run progress).1 = .error endless
  later : ∀ progress, Alike after progress → (conversion.run progress).1 = .error endless

/-- How a plain conversion goes along with one that minds its landmarks while the given names are
pending: where that one gives up there is a circle, and if what was passed never ends from there,
then the plain conversion never ends. -/
structure Mirrors {α : Type} (pending : List String) (circle : Prop) (doomed : Progress → Prop)
    (first second : Conversion α) : Prop where
  advances {progress after result} : progress.pending = pending →
    first.run progress = (result, after) → Advances progress after
  repeats {progress after a} : progress.pending = pending →
    first.run progress = (.ok a, after) → Repeats second progress after
  circles {progress after} : progress.pending = pending →
    first.run progress = (.error endless, after) → circle
  diverges {progress after} : progress.pending = pending →
    first.run progress = (.error endless, after) → doomed after → Diverges second progress after

namespace Mirrors

variable {α β : Type} {pending : List String} {circle : Prop} {doomed : Progress → Prop}

/-- Conversions that give results without a change of what is known. -/
theorem still {first second : Conversion α}
    (one : ∀ progress, ∃ a after, first.run progress = (.ok a, after) ∧ Alike progress after)
    (two : ∀ progress, ∃ a after, second.run progress = (.ok a, after) ∧ Alike progress after) :
    Mirrors pending circle doomed first second := by
  have known {progress after result} (ran : first.run progress = (result, after)) :
      Alike progress after ∧ result ≠ .error endless := by
    obtain ⟨a, after', ran', alike⟩ := one progress
    rw [ran] at ran'
    cases ran'
    exact ⟨alike, nofun⟩
  refine ⟨fun _ ran => ?_, fun _ ran => ⟨fun other same => ?_, fun other _ => ?_⟩,
    fun _ ran => absurd rfl (known ran).2, fun _ ran => absurd rfl (known ran).2⟩
  · obtain ⟨alike, _⟩ := known ran
    exact ⟨alike.grows, fun name _ now => by rwa [alike.knows] at now⟩
  · obtain ⟨b, after, ran', alike⟩ := two other
    exact .inr ⟨b, after, ran', (known ran).1.symm.trans (same.trans alike)⟩
  · obtain ⟨b, after, ran', alike⟩ := two other
    exact .inr ⟨b, after, ran', alike⟩

theorem pure (a b : α) : Mirrors pending circle doomed (pure a) (pure b) :=
  still (fun progress => ⟨a, progress, rfl, .refl progress⟩)
    fun progress => ⟨b, progress, rfl, .refl progress⟩

theorem fail {failure : Failure} (ordinary : IsOrdinary failure) (second : Conversion α) :
    Mirrors pending circle doomed (throw failure) second := by
  refine ⟨fun _ ran => ?_, fun _ => nofun, fun _ ran => ?_, fun _ ran => ?_⟩
  · cases ran
    exact .refl _
  · exact absurd (Except.error.inj (congrArg Prod.fst ran)) ordinary
  · exact absurd (Except.error.inj (congrArg Prod.fst ran)) ordinary

theorem bind {first first' : Conversion α} {next next' : α → Conversion β}
    (here : Mirrors pending circle doomed first first')
    (rest : ∀ a b, Mirrors pending circle doomed (next a) (next' b)) :
    Mirrors pending circle doomed (first >>= next) (first' >>= next') := by
  constructor
  case advances =>
    intro progress after result same ran
    rcases ran' : first.run progress with ⟨failure | a, middle⟩
    · rw [Conversion.run_bind_error ran'] at ran
      cases ran
      exact here.advances same ran'
    · rw [Conversion.run_bind_ok ran'] at ran
      have kept := here.advances same ran'
      exact kept.trans ((rest a a).advances (kept.pending.trans same) ran)
  case repeats =>
    intro progress after b same ran
    obtain ⟨a, middle, ran', ran⟩ := Conversion.run_bind_eq_ok ran
    have kept := here.advances same ran'
    have one := here.repeats same ran'
    have two (b : α) := (rest a b).repeats (kept.pending.trans same) ran
    have grows := ((rest a a).advances (kept.pending.trans same) ran).toGrows
    constructor
    · intro other alike
      exact (one.again other alike).bind fun b now alike => (two b).again now alike
    · intro other more
      refine (one.later other (grows.trans more)).bind fun b now alike => ?_
      exact ((two b).later now (more.trans alike.grows)).from_alike alike
  case circles =>
    intro progress after same ran
    rcases ran' : first.run progress with ⟨failure | a, middle⟩
    · rw [Conversion.run_bind_error ran'] at ran
      cases ran
      exact here.circles same ran'
    · rw [Conversion.run_bind_ok ran'] at ran
      have kept := here.advances same ran'
      exact (rest a a).circles (kept.pending.trans same) ran
  case diverges =>
    intro progress after same ran doom
    rcases ran' : first.run progress with ⟨failure | a, middle⟩
    · rw [Conversion.run_bind_error ran'] at ran
      cases ran
      have stops := here.diverges same ran' doom
      exact ⟨fun other alike => stopped_bind (stops.again other alike),
        fun other alike => stopped_bind (stops.later other alike)⟩
    · rw [Conversion.run_bind_ok ran'] at ran
      have kept := here.advances same ran'
      have one := here.repeats same ran'
      have two (b : α) := (rest a b).diverges (kept.pending.trans same) ran doom
      have grows := ((rest a a).advances (kept.pending.trans same) ran).toGrows
      constructor
      · intro other alike
        exact (one.again other alike).bind_stopped fun b now alike => (two b).again now alike
      · intro other alike
        refine (one.later other (grows.trans alike.grows)).bind_stopped fun b now alike' => ?_
        exact (two b).later now (alike.trans alike')

theorem lift {result : Except Failure α} {next next' : α → Conversion β}
    (ordinary : FailsOnly IsOrdinary result)
    (rest : ∀ a, result = .ok a → Mirrors pending circle doomed (next a) (next' a)) :
    Mirrors pending circle doomed ((liftM result : Conversion α) >>= next)
      ((liftM result : Conversion α) >>= next') := by
  cases result with
  | error failure => exact fail (ordinary failure rfl) _
  | ok a => exact rest a rfl

theorem absorb_ends (name : Option String) (merged : List (Scalar × Field) × Option Shape)
    (shape : Shape) (progress : Progress) :
    ∃ a after, (absorb name merged shape).run progress = (.ok a, after) ∧ Alike progress after := by
  cases shape with
  | object => exact ⟨_, _, rfl, .refl progress⟩
  | _ => exact ⟨_, _, rfl, rfl, fun _ => rfl⟩

def comparison (pending : List String) (circle : Prop) (doomed : Progress → Prop) : Comparison where
  alike _ _ := True
  holds := Mirrors pending circle doomed
  refl _ := trivial
  map₂ := by intros; trivial
  pure _ := pure _ _
  fail ordinary := fail ordinary _
  bind here rest := here.bind fun a b => rest a b trivial
  lift ordinary rest := lift ordinary rest
  absorb name _ _ _ _ _ _ := still (absorb_ends name _ _) (absorb_ends name _ _)

theorem mono {doomed' : Progress → Prop} {first second : Conversion α}
    (h : Mirrors pending circle doomed first second)
    (weaker : ∀ progress, doomed' progress → doomed progress) :
    Mirrors pending circle doomed' first second :=
  ⟨h.advances, h.repeats, h.circles, fun same ran doom => h.diverges same ran (weaker _ doom)⟩

/-- A plain conversion that may go no deeper never ends. -/
theorem stop {doomed' : Progress → Prop} {first second : Conversion α}
    (h : Mirrors pending circle doomed first second) :
    Mirrors pending circle doomed' first (throw endless) :=
  ⟨h.advances, fun _ _ => ⟨fun _ _ => .inl rfl, fun _ _ => .inl rfl⟩, h.circles,
    fun _ _ _ => ⟨fun _ _ => rfl, fun _ _ => rfl⟩⟩

end Mirrors

end ApiBinding.OpenApi
