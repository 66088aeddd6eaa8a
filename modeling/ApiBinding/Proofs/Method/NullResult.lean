import ApiBinding.Proofs.Method.Hints
import ApiBinding.Proofs.Method.Writing

/-!
Methods that may return nothing: whether the type of their result admits it. It does for a success
without a body; for one whose body may be null it depends on the response that gives the type.
-/

namespace ApiBinding

/-- Whether a hint admits that there is no value: it is that of none, of anything, or nullable. -/
def TypeHint.AdmitsNull (hint : TypeHint) : Prop :=
  hint = TypeHint.none ∨ (∃ nullable, hint = .any nullable) ∨ hint.nullable = true

theorem TypeHint.admitsNull_withNull (hint : TypeHint) : (hint.withNull true).AdmitsNull := by
  refine .inr (.inr ?_)
  cases hint <;> rfl

namespace Operation

variable {operation : Operation} {settings : Settings} {method : Method} {mode : ResponseMode}
  {result : TypeHint} {cases : List StatusCase}

/-- Whether the response that gives the type of the result may be null, by itself or by its shape,
or another success has no body. -/
def ExpectsNull (operation : Operation) : Prop :=
  (∃ response ∈ operation.successes, response.type = none) ∨
    ∃ primary shape,
      (operation.successes.find? fun response => response.type.isSome) = some primary ∧
        primary.type = some shape ∧
        (primary.nullable = true ∨ (TypeHint.ofShape .response shape).AdmitsNull)

theorem mem_successes_of_gives {response : Response} {c : StatusCase}
    (h : response ∈ distinctStatuses operation.responses) (gives : Gives mode response c)
    (returns : c.action ≠ .failDeclared) : response ∈ operation.successes := by
  have success : response.isSuccess = true := by
    by_contra other
    exact returns (gives.fails (by simpa using other))
  exact List.mem_filter.mpr ⟨(Entries.distinct_sublist _ _).subset h, success⟩

/-- Whatever returns nothing without a look at a body is admitted by the type of the result. -/
theorem admitsNull_of_returnNothing (whole : mode.isStreamed = false)
    (cased : operation.cases mode = .ok cases) (results : Results operation mode result)
    {c : StatusCase} (member : c ∈ cases) (returns : c.action = .returnNothing) :
    result.AdmitsNull := by
  obtain ⟨declared, given, rfl⟩ := cases_eq_ok cased
  have empty : operation.successes = [] ∨ ∃ other ∈ operation.successes, other.type = none := by
    rcases mem_cases_iff.mp member with ⟨none, _⟩ | member
    · exact .inl none
    · obtain ⟨response, hresponse, gives⟩ := exists_of_forall₂ given member
      have success := mem_successes_of_gives hresponse gives (by simp [returns])
      cases gives with
      | nothing _ bare => exact .inr ⟨response, success, bare⟩
      | missing _ _ => cases returns
      | items => cases returns
      | bytes => cases returns
      | orNull => cases returns
      | value => cases returns
      | failure => cases returns
  cases results with
  | nothing => exact .inl rfl
  | items _ streamed => simp [whole] at streamed
  | orNull => exact TypeHint.admitsNull_withNull _
  | value h typed _ present =>
    rcases empty with none | ⟨other, member, bare⟩
    · simp [primary?, none] at h
    · exact absurd bare (present.2 other member)

/-- The type of a result with a body admits null exactly if that is expected. -/
theorem admitsNull_iff (whole : mode.isStreamed = false) (results : Results operation mode result)
    {primary : Response} {shape : Shape}
    (first : (operation.successes.find? fun response => response.type.isSome) = some primary)
    (typed : primary.type = some shape) : result.AdmitsNull ↔ operation.ExpectsNull := by
  have same : operation.primary? = some primary := by simp [primary?, first]
  cases results with
  | nothing h => simp [same, typed] at h
  | items _ streamed => simp [whole] at streamed
  | orNull h _ _ nullable =>
    obtain rfl := Option.some.inj (same.symm.trans h)
    refine iff_of_true (TypeHint.admitsNull_withNull _) ?_
    rcases nullable with nullable | bare
    · exact .inr ⟨primary, shape, first, typed, .inl nullable⟩
    · exact .inl bare
  | value h known _ present =>
    obtain rfl := Option.some.inj (same.symm.trans h)
    obtain rfl := Option.some.inj (typed.symm.trans known)
    constructor
    · exact fun admits => .inr ⟨primary, shape, first, typed, .inr admits⟩
    · rintro (⟨other, member, bare⟩ | ⟨other, own, found, hown, null⟩)
      · exact absurd bare (present.2 other member)
      · obtain rfl := Option.some.inj (first.symm.trans found)
        obtain rfl := Option.some.inj (typed.symm.trans hown)
        rcases null with nullable | admits
        · simp [present.1] at nullable
        · exact admits

theorem exists_typed_of_decodeOptional (cased : operation.cases mode = .ok cases) {c : StatusCase}
    (member : c ∈ cases) (decodes : c.action = .decodeOptional) :
    ∃ primary shape,
      (operation.successes.find? fun response => response.type.isSome) = some primary ∧
        primary.type = some shape := by
  obtain ⟨declared, given, rfl⟩ := cases_eq_ok cased
  have bodied : ∃ response ∈ operation.successes, response.type.isSome = true := by
    rcases mem_cases_iff.mp member with ⟨_, rfl⟩ | member
    · cases decodes
    · obtain ⟨response, hresponse, gives⟩ := exists_of_forall₂ given member
      have success := mem_successes_of_gives hresponse gives (by simp [decodes])
      cases gives with
      | orNull _ typed => exact ⟨response, success, by simp [typed]⟩
      | nothing => cases decodes
      | missing => cases decodes
      | items => cases decodes
      | bytes => cases decodes
      | value => cases decodes
      | failure => cases decodes
  obtain ⟨primary, first⟩ := Option.isSome_iff_exists.mp (List.find?_isSome.mpr bodied)
  have bodied := List.find?_some first
  obtain ⟨shape, typed⟩ := Option.isSome_iff_exists.mp bodied
  exact ⟨primary, shape, first, typed⟩

/-- A result that is not streamed admits that nothing is returned wherever a success has no body.
Where the body of a success may be null, it admits that exactly if the first success with a body may
be null, or another success has none: that a further body may be null does not count. -/
theorem null_admitted_iff_expected (made : operation.toMethod settings = .ok method)
    (whole : method.responseMode.isStreamed = false) :
    ∃ cases result,
      method.steps.getLast? = some (.response method.responseMode cases result) ∧
      (∀ c ∈ cases, c.action = .returnNothing → result.AdmitsNull) ∧
      ∀ c ∈ cases, c.action = .decodeOptional →
        (result.AdmitsNull ↔ operation.ExpectsNull) := by
  obtain ⟨names, declared, result, cases, making⟩ := toMethod_eq_ok made
  refine ⟨cases, result, making.getLast?_steps, fun c member returns => ?_,
    fun c member decodes => ?_⟩
  · exact admitsNull_of_returnNothing whole making.cased_by_mode making.results member returns
  · obtain ⟨primary, shape, first, typed⟩ :=
      exists_typed_of_decodeOptional making.cased_by_mode member decodes
    exact admitsNull_iff whole making.results first typed

/-- A success with a text for a body. -/
def textual (status : String) (nullable : Bool) : Response where
  status
  type := some (.primitive .string nullable)
  nullable

/-- An operation that answers with a text, or with one that may be null. -/
def textOrNull (others : List Response) : Operation :=
  { answering "Pet" "Find" [] with
    responses := [textual "200" false, textual "201" true] ++ others }

/-- A success without a body makes the result nullable, for all other successes too. -/
theorem null_admitted_beside_empty :
    ∃ method cases result,
      (textOrNull [{ status := "204" }]).toMethod Settings.standard = .ok method ∧
      method.steps.getLast? = some (.response method.responseMode cases result) ∧
      cases.map StatusCase.action = [.decodeValue, .decodeOptional, .returnNothing] ∧
      result.AdmitsNull := by
  obtain ⟨method, made⟩ :
      ∃ method, (textOrNull [{ status := "204" }]).toMethod Settings.standard = .ok method :=
    exists_eq_ok (by decide +kernel)
  obtain ⟨names, _, _, _, making⟩ := toMethod_eq_ok made
  have plain : method.responseMode = .plain := making.responseMode
  obtain ⟨cases, result, last, empty, _⟩ := null_admitted_iff_expected made (by rw [plain]; rfl)
  have seen : ((textOrNull [{ status := "204" }]).toMethod Settings.standard).toOption.map
      (fun method => method.steps.getLast?.map fun step => step.cases.map StatusCase.action) =
        some (some [.decodeValue, .decodeOptional, .returnNothing]) := by decide +kernel
  rw [made] at seen
  have seen : method.steps.getLast?.map (fun step => step.cases.map StatusCase.action) = _ :=
    Option.some.inj seen
  rw [last] at seen
  have seen : cases.map StatusCase.action = _ := Option.some.inj seen
  obtain ⟨c, member, returns⟩ : ∃ c ∈ cases, c.action = .returnNothing := by
    refine List.mem_map.mp ?_
    simp [seen]
  exact ⟨method, cases, result, made, last, seen, empty c member returns⟩

/-- A body that may be null, after a first one that may not, is returned though the type of the
result has no place for null. -/
theorem further_null_not_admitted :
    ∃ method cases result c,
      (textOrNull []).toMethod Settings.standard = .ok method ∧
      method.responseMode.isStreamed = false ∧
      method.steps.getLast? = some (.response method.responseMode cases result) ∧
      c ∈ cases ∧ c.action = .decodeOptional ∧ ¬result.AdmitsNull := by
  obtain ⟨method, made⟩ : ∃ method, (textOrNull []).toMethod Settings.standard = .ok method :=
    exists_eq_ok (by decide +kernel)
  obtain ⟨names, declared, result, cases, making⟩ := toMethod_eq_ok made
  have plain : method.responseMode = .plain := making.responseMode
  have cased : (textOrNull []).cases .plain = .ok cases := making.cased
  have results : Results (textOrNull []) .plain result := resultHint_eq_ok making.resulted
  have successes : (textOrNull []).successes = [textual "200" false, textual "201" true] := rfl
  have unexpected : ¬(textOrNull []).ExpectsNull := by
    rw [ExpectsNull, successes]
    simp [textual, TypeHint.AdmitsNull, TypeHint.ofShape, TypeHint.ofPrimitive, TypeHint.none,
      TypeHint.nullable]
  have seen : ((textOrNull []).cases .plain).toOption.map (List.map StatusCase.action) =
      some [.decodeValue, .decodeOptional] := by decide +kernel
  rw [cased] at seen
  have seen : cases.map StatusCase.action = _ := Option.some.inj seen
  obtain ⟨c, member, decodes⟩ : ∃ c ∈ cases, c.action = .decodeOptional := by
    refine List.mem_map.mp ?_
    simp [seen]
  refine ⟨method, cases, result, c, made, by rw [plain]; rfl, making.getLast?_steps, member, decodes,
    ?_⟩
  have first : ((textOrNull []).successes.find? fun response => response.type.isSome) =
      some (textual "200" false) := rfl
  exact mt (admitsNull_iff rfl results first rfl).mp unexpected

end Operation

end ApiBinding
