import ApiBinding.Text.Blank
import Mathlib.Data.List.DropRight

/-!
Texts without the blanks at their ends: what is left neither starts nor ends with one, and a text of
which that can be said is left alone.
-/

namespace ApiBinding.Text

variable {cs : List Char}

theorem head_dropWhile (cs : List Char) :
    ∀ c ∈ (cs.dropWhile isBlank).head?, isBlank c = false := by
  intro c first
  have other := List.head?_dropWhile_not isBlank cs
  rwa [Option.mem_def.mp first] at other

theorem dropWhile_of_head (starts : ∀ c ∈ cs.head?, isBlank c = false) :
    cs.dropWhile isBlank = cs := by
  cases cs with
  | nil => rfl
  | cons c cs => rw [List.dropWhile_cons, starts c rfl, if_neg Bool.false_ne_true]

theorem dropEnd_of_last (ends : ∀ c ∈ cs.getLast?, isBlank c = false) :
    dropEnd isBlank cs = cs := by
  refine List.rdropWhile_eq_self_iff.mpr fun filled => ?_
  rw [ends _ (List.getLast?_eq_some_getLast filled)]
  exact Bool.false_ne_true

theorem head_trim (cs : List Char) : ∀ c ∈ (trim cs).head?, isBlank c = false := by
  intro c first
  obtain ⟨ending, whole⟩ : trim cs <+: cs.dropWhile isBlank := List.rdropWhile_prefix isBlank _
  have first : (cs.dropWhile isBlank).head? = some c := by
    rw [← whole, List.head?_append, Option.mem_def.mp first]
    rfl
  exact head_dropWhile cs c first

theorem last_trim (cs : List Char) : ∀ c ∈ (trim cs).getLast?, isBlank c = false := by
  intro c last
  have filled : trim cs ≠ [] := by
    rintro empty
    rw [empty] at last
    cases last
  have other := List.rdropWhile_last_not isBlank _ filled
  obtain rfl : (trim cs).getLast filled = c := by
    rw [List.getLast?_eq_some_getLast filled] at last
    exact Option.some.inj last
  exact Bool.eq_false_iff.mpr other

/-- A text without blanks at its ends is left as it is. -/
theorem trim_of_ends (starts : ∀ c ∈ cs.head?, isBlank c = false)
    (ends : ∀ c ∈ cs.getLast?, isBlank c = false) : trim cs = cs := by
  rw [trim, dropWhile_of_head starts, dropEnd_of_last ends]

theorem trim_trim (cs : List Char) : trim (trim cs) = trim cs :=
  trim_of_ends (head_trim cs) (last_trim cs)

/-- Of a text that ends without a blank, the blanks in front are left out, if it does not consist of
them. -/
theorem trim_append {rest : List Char} (filled : ∃ c ∈ cs, isBlank c = false) (more : rest ≠ [])
    (ends : ∀ c ∈ rest.getLast?, isBlank c = false) :
    trim (cs ++ rest) = cs.dropWhile isBlank ++ rest := by
  have kept : cs.dropWhile isBlank ≠ [] := by
    intro empty
    obtain ⟨c, inside, other⟩ := filled
    have blank := List.dropWhile_eq_nil_iff.mp empty c inside
    simp [other] at blank
  have start : (cs ++ rest).dropWhile isBlank = cs.dropWhile isBlank ++ rest := by
    rw [List.dropWhile_append, if_neg (by simpa using kept)]
  rw [trim, start]
  apply dropEnd_of_last
  rwa [List.getLast?_append_of_ne_nil _ more]

end ApiBinding.Text
