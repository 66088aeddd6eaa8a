import ApiBinding.OpenApi.Reference
import ApiBinding.Proofs.Text.Pieces

/-!
Where references lead: one that names a schema leads to what has that name in one of two places.
-/

namespace ApiBinding.OpenApi

/-- The keys that lead to the schemas with names. -/
def schemaKeys : List (List String) := [["components", "schemas"], ["definitions"]]

theorem keysOf_slash {s : String} {cs : List Char} (text : s.toList = '/' :: cs) (more : cs ≠ []) :
    keysOf s = (Text.pieces (· == '/') cs).map fun key => unescapeKey (String.ofList key) := by
  have filled : s ≠ "" := by
    rintro rfl
    cases text
  have longer : s ≠ "/" := by
    rintro rfl
    exact more (List.cons.inj text).2.symm
  have rest : Text.rest? "/" s = some (String.ofList cs) := by
    rw [Text.rest?, text]
    simp [Text.after?]
  simp [keysOf, filled, longer, rest, Text.piecesAt]

theorem keysOf_components {rest : String} (whole : ∀ c ∈ rest.toList, (c == '/') = false) :
    keysOf ("/components/schemas/" ++ rest) = ["components", "schemas", unescapeKey rest] := by
  have text : ("/components/schemas/" ++ rest).toList =
      '/' :: ("components".toList ++ '/' :: ("schemas".toList ++ '/' :: rest.toList)) := by simp
  rw [keysOf_slash text (by simp), Text.pieces_word (by decide) (by decide),
    Text.pieces_word (by decide) (by decide), Text.pieces_whole whole]
  simp
  decide

theorem keysOf_definitions {rest : String} (whole : ∀ c ∈ rest.toList, (c == '/') = false) :
    keysOf ("/definitions/" ++ rest) = ["definitions", unescapeKey rest] := by
  have text : ("/definitions/" ++ rest).toList =
      '/' :: ("definitions".toList ++ '/' :: rest.toList) := by simp
  rw [keysOf_slash text (by simp), Text.pieces_word (by decide) (by decide),
    Text.pieces_whole whole]
  simp
  decide

theorem follow?_of_referenced {document target : Value} {fragment : String}
    (found : referenced document ("#" ++ fragment) = .ok target) :
    follow? document (keysOf fragment) = some target := by
  rw [referenced, Text.rest?_append] at found
  simp only [atFragment] at found
  split at found
  next v here =>
    cases found
    exact here
  next => cases found

/-- A reference that names a schema leads to what has the name in one of the places for schemas. -/
theorem follow?_of_named {document target : Value} {reference name : String}
    (named : namedSchema? reference = some name)
    (found : referenced document reference = .ok target) :
    ∃ place ∈ schemaKeys, follow? document (place ++ [name]) = some target := by
  unfold namedSchema? at named
  split at named
  next rest located =>
    split at named
    next => cases named
    next plain =>
      obtain rfl := Option.some.inj named
      have whole : ∀ c ∈ rest.toList, (c == '/') = false := by
        intro c hc
        rw [beq_eq_false_iff_ne]
        rintro rfl
        exact plain (by simpa using hc)
      obtain ⟨start, known, starts⟩ := List.exists_of_findSome?_eq_some located
      obtain rfl := Text.eq_append_of_rest? starts
      simp only [schemaPlaces, List.mem_cons, List.not_mem_nil, or_false] at known
      rcases known with rfl | rfl
      · have same : "#/components/schemas/" ++ rest = "#" ++ ("/components/schemas/" ++ rest) := by
          rw [← String.append_assoc]
          rfl
        rw [same] at found
        refine ⟨["components", "schemas"], by simp [schemaKeys], ?_⟩
        rw [← follow?_of_referenced found, keysOf_components whole]
        rfl
      · have same : "#/definitions/" ++ rest = "#" ++ ("/definitions/" ++ rest) := by
          rw [← String.append_assoc]
          rfl
        rw [same] at found
        refine ⟨["definitions"], by simp [schemaKeys], ?_⟩
        rw [← follow?_of_referenced found, keysOf_definitions whole]
        rfl
  next => cases named

end ApiBinding.OpenApi
