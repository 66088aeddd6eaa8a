import ApiBinding.Proofs.Code.Method
import ApiBinding.Proofs.Identifier.Free
import ApiBinding.Proofs.Method.Writing

/-!
What bodies name besides their arguments. No argument can have a name that its body assigns or reads
by itself.
-/

namespace ApiBinding

open Identifier (isForbidden ofRaw)

def Argument.unnamed (argument : Argument) : Argument := { argument with name := "" }

/-- A step with nothing written where its arguments are named. -/
def Step.unnamed : Step → Step
  | .url path arguments => .url path (arguments.map Argument.unnamed)
  | .query arguments => .query (arguments.map Argument.unnamed)
  | .headers arguments accept contentType =>
    .headers (arguments.map Argument.unnamed) accept contentType
  | .wholeBody argument format => .wholeBody argument.unnamed format
  | .streamedBody argument => .streamedBody argument.unnamed
  | step => step

namespace Operation

variable {operation : Operation} {mode : ResponseMode}

theorem isProse_of_caseOf {response : Response} {c : StatusCase}
    (prose : response.description.IsProse) (h : caseOf mode response = .ok c) :
    c.message.IsProse := by
  have text (s : String) : (Value.text s).IsProse := .inr ⟨s, rfl⟩
  have null : Value.null.IsProse := .inl rfl
  unfold caseOf at h
  split at h
  next success =>
    cases gives_of_caseForSuccess success h with
    | nothing => exact null
    | missing => exact text _
    | items => exact text _
    | bytes => exact null
    | orNull => exact null
    | value => exact text _
    | failure error => cases success.symm.trans error
  next =>
    obtain ⟨type, _, made⟩ := bind_eq_ok.mp h
    cases made
    dsimp only
    split
    · exact prose
    · exact text _

/-- A message is a fixed text or the description of a response. -/
theorem isProse_message (prose : ∀ response ∈ operation.responses, response.description.IsProse)
    {cases : List StatusCase} (h : operation.cases mode = .ok cases) :
    ∀ c ∈ cases, c.message.IsProse := by
  obtain ⟨declared, given, rfl⟩ := exists_declared h
  intro c member
  rcases mem_cases_iff.mp member with ⟨_, rfl⟩ | member
  · exact .inl rfl
  · obtain ⟨response, distinct, made⟩ := exists_of_forall₂ given member
    exact isProse_of_caseOf (prose response ((Entries.distinct_sublist _ _).subset distinct)) made

end Operation

namespace Code

/-- Whether a name is none that an argument can have, or a label. -/
def IsOwn (name : String) : Prop :=
  isForbidden .parameter name = true ∨ name ∈ bodyLabels ∨
    name.toList.head?.any Char.isDigit = true

theorem allowsBodies_own : AllowsBodies IsOwn where
  words := fun name member => by
    have each : ∀ name ∈ bodyWords, isForbidden .parameter name = true ∨ name ∈ bodyLabels := by
      decide +kernel
    exact (each name member).imp_right .inl
  numbers := fun n => .inr (.inr (Numeral.head_toString n))

/-- A name that a body has by itself is that of an argument only if it is a label. -/
theorem label_of_isOwn {raw : String} (own : IsOwn (ofRaw .parameter raw)) :
    ofRaw .parameter raw ∈ bodyLabels := by
  have free := Identifier.isFree_ofRaw .parameter raw
  rcases own with taken | label | digit
  · rw [free.allowed] at taken
    cases taken
  · exact label
  · have starts := free.starts
    revert starts digit
    cases (ofRaw .parameter raw).toList.head? with
    | none => nofun
    | some c =>
      intro digit starts
      have other : c.isDigit = false := by simpa [Identifier.isNameStart] using starts
      exact absurd digit (by simp [other])

/-- The names that bodies assign and read are no names of arguments. -/
theorem not_mem_bodyNames (raw : String) :
    ofRaw .parameter raw ∉ bodyNames ++ Identifier.localNames ++
      SupportClass.all.map SupportClass.name := by
  intro member
  have taken : ∀ name ∈ bodyNames ++ Identifier.localNames ++
      SupportClass.all.map SupportClass.name, isForbidden .parameter name = true := by
    decide +kernel
  have free := Identifier.isForbidden_ofRaw .parameter raw
  rw [taken _ member] at free
  cases free

theorem says_prose {v : Value} (prose : v.IsProse) : SaysOnly IsOwn v.literal := by
  obtain rfl | ⟨s, rfl⟩ := prose
  · exact allowsBodies_own.fixed (s := "None") (by decide)
  · exact says_quoted s

section

variable {operation : Operation} {settings : Settings} {method : Method}

theorem fits_unnamed (prose : ∀ response ∈ operation.responses, response.description.IsProse)
    (made : operation.toMethod settings = .ok method) :
    ∀ step ∈ method.steps, StepFits IsOwn step.unnamed := by
  have nameless (arguments : List Argument) :
      ∀ argument ∈ arguments.map Argument.unnamed, SaysOnly IsOwn argument.name := by
    rw [List.forall_mem_map]
    exact fun _ _ => says_nothing
  have support (one : SupportClass) : IsOwn one.name := by
    left
    cases one <;> decide +kernel
  obtain ⟨names, declared, result, cases, making⟩ := Operation.toMethod_eq_ok made
  refine making.forall_steps (nameless _) (nameless _) (nameless _) ?_ ?_ ?_ ?_ ?_
  · exact fun _ _ _ => says_nothing
  · exact fun _ _ _ => ⟨says_nothing, support _⟩
  · exact fun _ _ _ _ => trivial
  · trivial
  · exact ⟨fun one _ => support one, fun c member =>
      ⟨isStreamed_of_openStream making.cased member,
        says_prose (Operation.isProse_message prose making.cased c member)⟩⟩

/-- What a body names besides its arguments, none of them is called. -/
theorem own_names (prose : ∀ response ∈ operation.responses, response.description.IsProse)
    (made : operation.toMethod settings = .ok method) {style : TypeHint.Style}
    {blocks : List (List String)}
    (h : (method.steps.map Step.unnamed).mapM (Step.lines style) = .ok blocks) :
    ∀ name ∈ names blocks.flatten, IsOwn name := by
  have fits : ∀ step ∈ method.steps.map Step.unnamed, StepFits IsOwn step := by
    rw [List.forall_mem_map]
    exact fits_unnamed prose made
  exact (reads_steps allowsBodies_own fits h).names

end

end Code

end ApiBinding
