import ApiBinding.Method.Render
import ApiBinding.Proofs.Method.Case
import ApiBinding.Proofs.Method.Making

/-!
Which methods can be written out: those whose cases have statuses that can be tested. Nothing but
the text of a status is looked at so late.
-/

namespace ApiBinding

/-- Whether a status is the default or stands for statuses that can be tested. -/
def StatusTest.IsReadable (status : String) : Prop :=
  status = "default" ∨ (StatusTest.ofText? status).isSome = true

instance : DecidablePred StatusTest.IsReadable :=
  fun status => inferInstanceAs (Decidable (status = "default" ∨ _))

open StatusTest (IsReadable)

/-- Whether a value is a text or is left out. -/
def Value.IsProse (v : Value) : Prop := v = .null ∨ ∃ s, v = .text s

theorem StatusCase.lines_hingesOn (c : StatusCase) (mode : ResponseMode)
    (style : TypeHint.Style) :
    HingesOn (.misuse .numeral) (IsReadable c.status) (c.lines mode style) := by
  unfold StatusCase.lines
  dsimp only
  split
  next default => exact (HingesOn.of_ok _).congr (iff_of_true trivial (.inl default))
  next coded =>
    split
    next test read =>
      exact (HingesOn.of_ok _).congr (iff_of_true trivial (.inr (by rw [read, Option.isSome_some])))
    next unread =>
      have unreadable : ¬IsReadable c.status := by simp [IsReadable, coded, unread]
      exact ⟨fun readable => absurd readable unreadable, fun _ => rfl⟩

theorem responseLines_hingesOn (mode : ResponseMode) (cases : List StatusCase)
    (style : TypeHint.Style) :
    HingesOn (.misuse .numeral) (∀ c ∈ cases, IsReadable c.status)
      (responseLines mode cases style) := by
  have each := HingesOn.mapM cases fun c _ => c.lines_hingesOn mode style
  exact each.finish fun _ => ⟨_, rfl⟩

/-- The cases that a step tells apart by the status it has received. -/
def Step.cases : Step → List StatusCase
  | .response _ cases _ => cases
  | _ => []

theorem Step.lines_hingesOn (step : Step) (style : TypeHint.Style) :
    HingesOn (.misuse .numeral) (∀ c ∈ step.cases, IsReadable c.status) (step.lines style) := by
  cases step with
  | response mode cases result => exact responseLines_hingesOn mode cases style
  | _ => exact (HingesOn.of_ok _).congr (by simp [Step.cases])

namespace Method

variable {method : Method}

def cases (method : Method) : List StatusCase := method.steps.flatMap Step.cases

/-- Whether the statuses that a method tells apart can be tested. -/
def IsReadable (method : Method) : Prop := ∀ c ∈ method.cases, StatusTest.IsReadable c.status

theorem exists_docstring (prose : method.summary.IsProse) :
    ∃ lines, method.docstring = .ok lines := by
  unfold docstring
  rcases prose with none | ⟨s, some⟩
  · rw [none]
    exact ⟨_, rfl⟩
  · rw [some]
    exact ⟨_, rfl⟩

theorem exists_interfaceLines (prose : method.summary.IsProse) (dialect : Dialect) :
    ∃ lines, method.interfaceLines dialect = .ok lines := by
  obtain ⟨docstring, described⟩ := exists_docstring prose
  exact ⟨_, by rw [interfaceLines, described]; rfl⟩

theorem lines_hingesOn (prose : method.summary.IsProse) (dialect : Dialect) (overrides : Bool) :
    HingesOn (.misuse .numeral) method.IsReadable (method.lines dialect overrides) := by
  obtain ⟨docstring, described⟩ := exists_docstring prose
  rw [lines, described, ok_bind]
  have each := HingesOn.mapM method.steps fun step _ => step.lines_hingesOn (.inline dialect)
  refine (each.finish fun _ => ⟨_, rfl⟩).congr ?_
  rw [IsReadable, cases, List.forall_mem_flatMap]

end Method

namespace Operation

variable {operation : Operation} {settings : Settings} {method : Method}

theorem summary_of_toMethod (made : operation.toMethod settings = .ok method) :
    method.summary = operation.summary := by
  obtain ⟨_, _, h⟩ := bind_eq_ok.mp made
  obtain ⟨_, _, h⟩ := bind_eq_ok.mp h
  obtain ⟨_, _, h⟩ := bind_eq_ok.mp h
  obtain ⟨_, _, h⟩ := bind_eq_ok.mp h
  obtain ⟨_, _, h⟩ := bind_eq_ok.mp h
  cases h
  rfl

theorem Making.cases_eq {names : Names} {declared : List Argument} {result : TypeHint}
    {cases : List StatusCase}
    (making : Making operation settings method names declared result cases) :
    method.cases = cases := by
  have body : (operation.sentBody settings names declared).2.flatMap Step.cases = [] := by
    unfold sentBody bodyPart
    split
    · split <;> rfl
    · rfl
  have query : (if (argumentsIn .query method.arguments).isEmpty then []
      else [Step.query (argumentsIn .query method.arguments)]).flatMap Step.cases = [] := by
    split <;> rfl
  rw [Method.cases, making.steps]
  simp only [List.flatMap_append, body, query]
  simp [Step.cases]

/-- A method has the statuses of the responses, and where there is no success that of any. -/
theorem readable_iff (made : operation.toMethod settings = .ok method) :
    method.IsReadable ↔ ∀ response ∈ operation.responses, IsReadable response.statusKey := by
  obtain ⟨names, arguments, result, cases, making⟩ := toMethod_eq_ok made
  obtain ⟨declared, given, same⟩ := cases_eq_ok making.cased
  have implied : IsReadable "2XX" := by decide
  have statuses {status : String} :
      status ∈ declared.map StatusCase.status ↔
        status ∈ operation.responses.map Response.statusKey := by
    rw [statuses_eq given]
    exact Entries.key_mem_map_firsts Response.statusKey
  rw [Method.IsReadable, making.cases_eq, same]
  constructor
  · intro readable response member
    obtain ⟨c, hc, key⟩ := List.mem_map.mp (statuses.mpr (List.mem_map_of_mem member))
    rw [← key]
    exact readable c (mem_cases_iff.mpr (.inr hc))
  · intro readable c member
    rcases mem_cases_iff.mp member with ⟨_, rfl⟩ | hc
    · exact implied
    · obtain ⟨response, hr, key⟩ := List.mem_map.mp (statuses.mp (List.mem_map_of_mem hc))
      rw [← key]
      exact readable response hr

end Operation

end ApiBinding
