import ApiBinding.Proofs.Client.Refusal

/-!
Names of schemas that have one identifier. They are told apart inside of an operation only: the
declarations of different operations are united by their identifiers before they are checked.
-/

namespace ApiBinding.Client

open Identifier (ofRaw)
open Declaration (Clash)

/-- Whether names of schemas clash inside of an operation of the description. -/
def HasClash (description : Description) : Prop :=
  ∃ operation ∈ description.operations, ∃ first second, Clash operation.Reaches first second

variable {description : Description} {settings : Settings}

theorem not_hasClash_of_ok {clients : List Client}
    (consistent : ∀ operation ∈ description.operations, operation.IsConsistent)
    (h : (ofDescription description settings).result = .ok clients) : ¬HasClash description := by
  rintro ⟨operation, ho, first, second, clash⟩
  obtain ⟨members, taken, built⟩ := built_of_ofDescription h
  obtain ⟨member, hmember, rfl⟩ := List.mem_map.mp (built.operations ▸ ho)
  have collected := Operation.collected_of_toMethod (built.made member hmember)
  have absent := Declaration.not_clash_of_collected collected (consistent _ ho)
  exact absent first second clash

/-- Operations whose names and types can be written are refused for a collision only. -/
theorem collision_of_error {failure : Failure}
    (typed : ∀ operation ∈ description.operations, operation.IsTyped)
    (h : (ofDescription description settings).result = .error failure) :
    ∃ scope name first second, failure = .collision scope name first second := by
  cases ofDescription_failsOnly description settings failure h with
  | operation ho refused =>
    cases refused with
    | untyped loose => exact absurd (typed _ ho) loose
    | parameters => exact ⟨_, _, _, _, rfl⟩
    | clash => exact ⟨_, _, _, _, rfl⟩
  | methods => exact ⟨_, _, _, _, rfl⟩
  | clients => exact ⟨_, _, _, _, rfl⟩
  | taken => exact ⟨_, _, _, _, rfl⟩

/-- Names that clash are refused where one operation has both, and no other names of schemas are. A
description with nothing else to refuse gives clients exactly if no operation has such names. -/
theorem clash_refused_within_operation (description : Description) (settings : Settings)
    (typed : ∀ operation ∈ description.operations, operation.IsTyped)
    (consistent : ∀ operation ∈ description.operations, operation.IsConsistent) :
    (HasClash description → ∃ scope name first second,
      (ofDescription description settings).result = .error (.collision scope name first second)) ∧
    (∀ name first second,
      (ofDescription description settings).result = .error (.collision .types name first second) →
        name = ofRaw .type second ∧
        ((∃ operation ∈ description.operations, Clash operation.Reaches first second) ∨
          ∃ owner ∈ description.operations, first = label owner.tag ∧
            GoesBy settings owner.tag name)) ∧
    ((∀ failure, Refusal description settings failure → HasClash description) →
      ((∃ clients, (ofDescription description settings).result = .ok clients) ↔
        ¬HasClash description)) := by
  have refusals := ofDescription_failsOnly description settings
  have refused : HasClash description → ∃ scope name first second,
      (ofDescription description settings).result =
        .error (.collision scope name first second) := by
    intro clash
    cases hresult : (ofDescription description settings).result with
    | ok clients => exact absurd clash (not_hasClash_of_ok consistent hresult)
    | error failure =>
      obtain ⟨scope, name, first, second, rfl⟩ := collision_of_error typed hresult
      exact ⟨scope, name, first, second, rfl⟩
  refine ⟨refused, ?_, fun alone => ⟨?_, ?_⟩⟩
  · intro name first second hresult
    -- Of all refusals, two are about names of types.
    cases refusals _ hresult with
    | operation h refused =>
      cases refused with
      | clash clash => exact ⟨rfl, .inl ⟨_, h, clash⟩⟩
    | taken models ho h reached named goes differs => exact ⟨rfl, .inr ⟨_, ho, rfl, goes⟩⟩
  · rintro ⟨clients, hresult⟩
    exact not_hasClash_of_ok consistent hresult
  · intro absent
    cases hresult : (ofDescription description settings).result with
    | ok clients => exact ⟨clients, rfl⟩
    | error failure => exact absurd (alone failure (refusals failure hresult)) absent

def textRecord (name : String) : Shape :=
  .object (some name) [{ name := .text "x", type := .primitive .string false }] none false

theorem clash_refused_within_one_operation :
    ∃ description : Description,
      (∀ operation ∈ description.operations, operation.IsTyped) ∧
      (∀ operation ∈ description.operations, operation.IsConsistent) ∧
      ∃ scope name first second, (ofDescription description .standard).result =
        .error (.collision scope name first second) := by
  obtain ⟨operation, hop⟩ : ∃ operation, operation = Operation.answering "Pet" "A"
      [("200", textRecord "foo-bar"), ("400", textRecord "foo_bar")] := ⟨_, rfl⟩
  have shapes : operation.shapes = [textRecord "foo-bar", textRecord "foo_bar"] := by simp [hop]
  have reached {shape : Shape} (h : operation.Reaches shape) : shape = textRecord "foo-bar" ∨
      shape = textRecord "foo_bar" ∨ shape = .primitive .string false := by
    refine Operation.Reaches.of_closed (motive := fun shape => shape = textRecord "foo-bar" ∨
      shape = textRecord "foo_bar" ∨ shape = .primitive .string false) ?_ ?_ h
    · simp [shapes]
    · rintro shape (rfl | rfl | rfl) part hp <;>
        simp [textRecord, Shape.parts, Shape.fields, Shape.additional] at hp
      · exact .inr (.inr hp)
      · exact .inr (.inr hp)
  have typed : operation.IsTyped := by
    refine ⟨⟨"A", by rw [hop]; rfl⟩, by simp [hop, Operation.answering], ?_⟩
    intro name members nullable h
    simpa [textRecord] using reached h
  have consistent : operation.IsConsistent := by
    intro first second name hf hs hfn hsn
    rcases reached hf with rfl | rfl | rfl <;> rcases reached hs with rfl | rfl | rfl <;>
      simp_all [textRecord, Shape.declaredName?, Shape.label?, Shape.Agrees]
  have clash : HasClash { operations := [operation] } := by
    refine ⟨operation, by simp, "foo-bar", "foo_bar", by decide, by decide, ?_, ?_⟩
    · exact ⟨textRecord "foo-bar", ⟨_, by simp [shapes], .refl _⟩, by decide⟩
    · exact ⟨textRecord "foo_bar", ⟨_, by simp [shapes], .refl _⟩, by decide⟩
  refine ⟨{ operations := [operation] }, by simpa using typed, by simpa using consistent, ?_⟩
  exact (clash_refused_within_operation _ _ (by simpa using typed) (by simpa using consistent)).1
    clash

/-- Two operations of one client answer with records of different names, which have one identifier:
the client comes out. -/
theorem clash_across_operations_accepted :
    let description : Description := { operations := [
      .answering "Pet" "A" [("200", textRecord "foo-bar")],
      .answering "Pet" "B" [("200", textRecord "foo_bar")]] }
    Clash description.Reaches "foo-bar" "foo_bar" ∧
      (ofDescription description .standard).result.isOk = true := by
  refine ⟨⟨by decide, by decide, ⟨textRecord "foo-bar", ?_, by decide⟩,
    textRecord "foo_bar", ?_, by decide⟩, by decide +kernel⟩
  · exact ⟨_, List.mem_cons_self, _, by simp, .refl _⟩
  · exact ⟨_, List.mem_cons_of_mem _ List.mem_cons_self, _, by simp, .refl _⟩

end ApiBinding.Client
