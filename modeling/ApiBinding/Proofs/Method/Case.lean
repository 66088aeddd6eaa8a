import ApiBinding.Method.OfOperation
import ApiBinding.Proofs.Declaration.Meeting
import ApiBinding.Proofs.Entries
import ApiBinding.Proofs.Text.Upper

/-!
What happens on the responses of an operation: the case that each response gives, and which cases
an operation has in which order.
-/

namespace ApiBinding

namespace Response

variable {response : Response}

theorem isSuccess_iff : response.isSuccess = true ↔ response.status.toList.head? = some '2' := by
  by_cases default : response.status = "default"
  · simp [isSuccess, outcome, default]
  · by_cases success : response.status.toList.head? = some '2'
    · simp [isSuccess, outcome, default, success]
    · simp [isSuccess, outcome, default, success]

theorem statusKey_of_isSuccess (success : response.isSuccess = true) :
    response.statusKey = Text.upper response.status := by
  have : response.status ≠ "default" := by
    intro default
    rw [isSuccess_iff, default] at success
    exact absurd success (by decide)
  rw [statusKey, if_neg this]

theorem head?_statusKey :
    response.statusKey.toList.head? = some '2' ↔ response.isSuccess = true := by
  rw [isSuccess_iff, statusKey]
  split
  next default => rw [default]
  next => exact Text.head?_upper (by decide) (by decide)

end Response

namespace Operation

open TypeHint (ofShape ofShape?)
open Declaration (ofShape?_eq_ok)

/-- The case that a response gives under a mode. -/
inductive Gives (mode : ResponseMode) (response : Response) : StatusCase → Prop
  | nothing (success : response.isSuccess = true) (empty : response.type = none)
      (whole : mode.isStreamed = false) :
      Gives mode response { status := Text.upper response.status, action := .returnNothing }
  | missing (success : response.isSuccess = true) (empty : response.type = none)
      (streamed : mode.isStreamed = true) :
      Gives mode response
        { status := Text.upper response.status, action := .failEmpty,
          message := .text missingBodyMessage }
  | items {shape : Shape} (success : response.isSuccess = true)
      (typed : response.type = some shape) (streamed : mode.isStreamed = true) :
      Gives mode response
        { status := Text.upper response.status, action := .openStream,
          type := (ofShape { usage := .response, streamsResult := true } shape).withNull false,
          message := .text missingBodyMessage }
  | bytes {shape : Shape} (success : response.isSuccess = true)
      (typed : response.type = some shape) (whole : mode.isStreamed = false)
      (binary : shape.isBytes = true) :
      Gives mode response
        { status := Text.upper response.status, action := .returnBytes,
          type := ofShape .response shape }
  | orNull {shape : Shape} (success : response.isSuccess = true)
      (typed : response.type = some shape) (whole : mode.isStreamed = false)
      (other : shape.isBytes = false) (nullable : response.nullable = true) :
      Gives mode response
        { status := Text.upper response.status, action := .decodeOptional,
          type := (ofShape .response shape).withNull true }
  | value {shape : Shape} (success : response.isSuccess = true)
      (typed : response.type = some shape) (whole : mode.isStreamed = false)
      (other : shape.isBytes = false) (present : response.nullable = false) :
      Gives mode response
        { status := Text.upper response.status, action := .decodeValue,
          type := ofShape .response shape, message := .text missingBodyMessage }
  | failure (error : response.isSuccess = false) (message : Value) :
      Gives mode response
        { status := response.statusKey, action := .failDeclared,
          type := response.type.map (ofShape .response), message }

section

variable {mode : ResponseMode} {response : Response} {c : StatusCase}

theorem gives_of_caseForSuccess (success : response.isSuccess = true)
    (h : caseForSuccess mode response = .ok c) : Gives mode response c := by
  unfold caseForSuccess at h
  dsimp only at h
  split at h
  next empty =>
    split at h
    next streamed =>
      cases h
      exact .missing success empty streamed
    next whole =>
      cases h
      exact .nothing success empty (by simpa using whole)
  next shape typed =>
    split at h
    next streamed =>
      obtain ⟨hint, hhint, made⟩ := bind_eq_ok.mp h
      cases made
      rw [(ofShape?_eq_ok.mp hhint).2]
      exact .items success typed streamed
    next whole =>
      have whole : mode.isStreamed = false := by simpa using whole
      obtain ⟨hint, hhint, made⟩ := bind_eq_ok.mp h
      rw [(ofShape?_eq_ok.mp hhint).2] at made
      split at made
      next binary =>
        cases made
        exact .bytes success typed whole binary
      next other =>
        have other : shape.isBytes = false := by simpa using other
        split at made
        next nullable =>
          cases made
          exact .orNull success typed whole other nullable
        next present =>
          cases made
          exact .value success typed whole other (by simpa using present)

theorem eq_map_of_mapM_ofShape? {type : Option Shape} {hint : Option TypeHint}
    (h : type.mapM (ofShape? .response) = .ok hint) : hint = type.map (ofShape .response) := by
  cases type with
  | none =>
    cases h
    rfl
  | some shape =>
    obtain ⟨hint, hshape, made⟩ := bind_eq_ok.mp h
    cases made
    rw [(ofShape?_eq_ok.mp hshape).2]
    rfl

theorem gives_of_caseForError (error : response.isSuccess = false)
    (h : caseForError response = .ok c) : Gives mode response c := by
  obtain ⟨hint, hhint, made⟩ := bind_eq_ok.mp h
  cases made
  rw [eq_map_of_mapM_ofShape? hhint]
  exact .failure error _

theorem caseOf_eq_ok (h : caseOf mode response = .ok c) : Gives mode response c := by
  unfold caseOf at h
  split at h
  next success => exact gives_of_caseForSuccess success h
  next error => exact gives_of_caseForError (by simpa using error) h

end

/-- The case that stands in for a success, where none is declared. -/
def impliedCases (operation : Operation) : List StatusCase :=
  if operation.successes.isEmpty then [{ status := "2XX", action := .returnNothing }] else []

/-- The cases are the one that stands in for a success and those of the declared responses, of which
the default comes last. -/
theorem exists_declared {operation : Operation} {mode : ResponseMode} {cases : List StatusCase}
    (h : operation.cases mode = .ok cases) :
    ∃ declared,
      List.Forall₂ (fun response c => caseOf mode response = .ok c)
        (distinctStatuses operation.responses) declared ∧
      cases = operation.impliedCases
        ++ (declared.filter (fun c => !(c.status == "default"))
          ++ declared.filter fun c => c.status == "default") := by
  obtain ⟨declared, hdeclared, h⟩ := bind_eq_ok.mp h
  refine ⟨declared, mapM_eq_ok.mp hdeclared, ?_⟩
  simp only [List.partition_eq_filter_filter, pure_eq_ok, Except.ok.injEq, List.append_assoc] at h
  exact h.symm

theorem cases_eq_ok {operation : Operation} {mode : ResponseMode} {cases : List StatusCase}
    (h : operation.cases mode = .ok cases) :
    ∃ declared, List.Forall₂ (Gives mode) (distinctStatuses operation.responses) declared ∧
      cases = operation.impliedCases
        ++ (declared.filter (fun c => !(c.status == "default"))
          ++ declared.filter fun c => c.status == "default") := by
  obtain ⟨declared, given, same⟩ := exists_declared h
  exact ⟨declared, given.imp fun _ _ => caseOf_eq_ok, same⟩

theorem Gives.status_eq {mode : ResponseMode} {response : Response} {c : StatusCase}
    (h : Gives mode response c) : c.status = response.statusKey := by
  cases h with
  | failure => rfl
  | nothing success => exact (Response.statusKey_of_isSuccess success).symm
  | missing success => exact (Response.statusKey_of_isSuccess success).symm
  | items success => exact (Response.statusKey_of_isSuccess success).symm
  | bytes success => exact (Response.statusKey_of_isSuccess success).symm
  | orNull success => exact (Response.statusKey_of_isSuccess success).symm
  | value success => exact (Response.statusKey_of_isSuccess success).symm

section

variable {operation : Operation} {mode : ResponseMode} {cases declared : List StatusCase}

theorem statuses_eq {responses : List Response}
    (h : List.Forall₂ (Gives mode) responses declared) :
    declared.map StatusCase.status = responses.map Response.statusKey := by
  induction h with
  | nil => rfl
  | cons here _ ih => rw [List.map_cons, List.map_cons, here.status_eq, ih]

theorem nodup_declared
    (h : List.Forall₂ (Gives mode) (distinctStatuses operation.responses) declared) :
    (declared.map StatusCase.status).Nodup := by
  rw [statuses_eq h]
  exact Entries.nodup_map_firsts Response.statusKey _

theorem mem_cases_iff {c : StatusCase} :
    c ∈ operation.impliedCases ++ (declared.filter (fun c => !(c.status == "default"))
        ++ declared.filter fun c => c.status == "default") ↔
      (operation.successes = [] ∧ c = { status := "2XX", action := .returnNothing }) ∨
        c ∈ declared := by
  have implied : c ∈ operation.impliedCases ↔
      operation.successes = [] ∧ c = { status := "2XX", action := .returnNothing } := by
    unfold impliedCases
    split <;> simp_all
  rw [List.mem_append, implied, (List.perm_append_comm.trans (List.filter_append_perm _ _)).mem_iff]

theorem head?_ne_of_no_success
    (h : List.Forall₂ (Gives mode) (distinctStatuses operation.responses) declared)
    (none : operation.successes = []) {c : StatusCase} (hc : c ∈ declared) :
    c.status.toList.head? ≠ some '2' := by
  obtain ⟨response, hresponse, gives⟩ := exists_of_forall₂ h hc
  have hresponse := (Entries.distinct_sublist _ _).subset hresponse
  rw [gives.status_eq, Ne, Response.head?_statusKey]
  exact List.filter_eq_nil_iff.mp none response hresponse

theorem nodup_statuses (h : operation.cases mode = .ok cases) :
    (cases.map StatusCase.status).Nodup := by
  obtain ⟨declared, given, rfl⟩ := cases_eq_ok h
  have split := List.perm_append_comm.trans
    (List.filter_append_perm (fun c : StatusCase => c.status == "default") declared)
  rw [List.map_append]
  refine List.nodup_append.mpr ⟨?_, (split.map _).nodup_iff.mpr (nodup_declared given), ?_⟩
  · unfold impliedCases
    split <;> simp
  · intro status implied other present same
    unfold impliedCases at implied
    split at implied
    next none =>
      obtain rfl : status = "2XX" := by simpa using implied
      obtain ⟨c, hc, rfl⟩ := List.mem_map.mp ((split.map _).mem_iff.mp present)
      refine head?_ne_of_no_success given (by simpa using none) hc ?_
      rw [← same]
      decide
    next => cases implied

theorem default_last (h : operation.cases mode = .ok cases) :
    ∀ c ∈ cases.dropLast, c.status ≠ "default" := by
  obtain ⟨declared, given, rfl⟩ := cases_eq_ok h
  have front : ∀ c ∈ operation.impliedCases
      ++ declared.filter (fun c => !(c.status == "default")), c.status ≠ "default" := by
    intro c hc
    rcases List.mem_append.mp hc with hc | hc
    · unfold impliedCases at hc
      split at hc
      · obtain rfl : c = _ := by simpa using hc
        decide
      · cases hc
    · simpa using (List.mem_filter.mp hc).2
  have alike : ∀ c ∈ declared.filter fun c => c.status == "default", c.status = "default" :=
    fun c hc => by simpa using (List.mem_filter.mp hc).2
  have different : ((declared.filter fun c => c.status == "default").map StatusCase.status).Nodup :=
    (List.filter_sublist.map _).nodup (nodup_declared given)
  rw [← List.append_assoc]
  generalize (declared.filter fun c => c.status == "default") = last at alike different ⊢
  -- All defaults have one status and no status comes twice, so there is at most one default.
  match last, alike, different with
  | [], _, _ =>
    intro c hc
    exact front c (by simpa using List.dropLast_subset _ hc)
  | [d], _, _ => simpa using front
  | a :: b :: _, alike, different =>
    have : a.status = b.status := (alike a (by simp)).trans (alike b (by simp)).symm
    simp [this] at different

theorem exists_success (h : operation.cases mode = .ok cases) :
    ∃ c ∈ cases, c.status.toList.head? = some '2' := by
  obtain ⟨declared, given, rfl⟩ := cases_eq_ok h
  simp only [mem_cases_iff]
  cases successes : operation.successes with
  | nil => exact ⟨_, .inl ⟨rfl, rfl⟩, by decide⟩
  | cons response rest =>
    have hresponse : response ∈ operation.successes := by simp [successes]
    obtain ⟨hmem, success⟩ := List.mem_filter.mp hresponse
    have key : response.statusKey ∈ declared.map StatusCase.status := by
      rw [statuses_eq given]
      exact (Entries.key_mem_map_firsts Response.statusKey).mpr (List.mem_map_of_mem hmem)
    obtain ⟨c, hc, same⟩ := List.mem_map.mp key
    exact ⟨c, .inr hc, by rw [same, Response.head?_statusKey, success]⟩

end

end Operation

/-- What may be done on a success in a mode. -/
def ResponseMode.Allows (mode : ResponseMode) (action : CaseAction) : Prop :=
  if mode.isStreamed then action = .openStream ∨ action = .failEmpty
  else action = .decodeValue ∨ action = .decodeOptional ∨ action = .returnBytes
    ∨ action = .returnNothing

namespace Operation

theorem Gives.allows {mode : ResponseMode} {response : Response} {c : StatusCase}
    (h : Gives mode response c) (success : response.isSuccess = true) : mode.Allows c.action := by
  cases h with
  | nothing _ _ whole => simp [ResponseMode.Allows, whole]
  | missing _ _ streamed => simp [ResponseMode.Allows, streamed]
  | items _ _ streamed => simp [ResponseMode.Allows, streamed]
  | bytes _ _ whole => simp [ResponseMode.Allows, whole]
  | orNull _ _ whole => simp [ResponseMode.Allows, whole]
  | value _ _ whole => simp [ResponseMode.Allows, whole]
  | failure error => simp [success] at error

theorem Gives.fails {mode : ResponseMode} {response : Response} {c : StatusCase}
    (h : Gives mode response c) (error : response.isSuccess = false) :
    c.action = .failDeclared := by
  cases h with
  | failure => rfl
  | nothing success => simp [error] at success
  | missing success => simp [error] at success
  | items success => simp [error] at success
  | bytes success => simp [error] at success
  | orNull success => simp [error] at success
  | value success => simp [error] at success

/-- On a success is done what the mode allows, on anything else the declared exception is raised. -/
theorem actions_of_cases {operation : Operation} {mode : ResponseMode} {cases : List StatusCase}
    (h : operation.cases mode = .ok cases)
    (declares : mode.isStreamed = true → operation.successes ≠ []) :
    ∀ c ∈ cases, (c.status.toList.head? = some '2' → mode.Allows c.action) ∧
      (c.status.toList.head? ≠ some '2' → c.action = .failDeclared) := by
  obtain ⟨declared, given, rfl⟩ := cases_eq_ok h
  intro c hc
  rcases mem_cases_iff.mp hc with ⟨none, rfl⟩ | hc
  · have whole : mode.isStreamed = false := by
      rw [Bool.eq_false_iff]
      exact fun streamed => declares streamed none
    exact ⟨fun _ => by simp [ResponseMode.Allows, whole], fun error => absurd (by decide) error⟩
  · obtain ⟨response, _, gives⟩ := exists_of_forall₂ given hc
    rw [gives.status_eq, Ne, Response.head?_statusKey]
    exact ⟨gives.allows, fun error => gives.fails (by simpa using error)⟩

end Operation

end ApiBinding
