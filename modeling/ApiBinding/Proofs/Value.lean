import ApiBinding.Proofs.Outcome
import ApiBinding.Value.Use
import Mathlib.Data.List.Basic

/-!
Values that hold themselves nowhere, and what is found inside of them: it is smaller, and holds no
texts that they do not hold.
-/

namespace ApiBinding

theorem Scalar.same_text_iff {s : Scalar} {t : String} : s.same (.text t) = true ↔ s = .text t := by
  cases s <;> simp [same, whole?]

namespace Value

mutual

/-- Whether the value holds itself nowhere. -/
def isFinite : Value → Bool
  | .scalar _ | .set _ => true
  | .list items => itemsFinite items
  | .map entries => entriesFinite entries
  | .pair first second => first.isFinite && second.isFinite
  | .knot .. | .again _ => false

def itemsFinite : List Value → Bool
  | [] => true
  | v :: rest => v.isFinite && itemsFinite rest

def entriesFinite : List (Scalar × Value) → Bool
  | [] => true
  | (_, v) :: rest => v.isFinite && entriesFinite rest

end

mutual

/-- The texts in a value, other than keys and members of sets. -/
def texts : Value → List String
  | .text s => [s]
  | .list items => itemTexts items
  | .map entries => entryTexts entries
  | .pair first second => first.texts ++ second.texts
  | _ => []

def itemTexts : List Value → List String
  | [] => []
  | v :: rest => v.texts ++ itemTexts rest

def entryTexts : List (Scalar × Value) → List String
  | [] => []
  | (_, v) :: rest => v.texts ++ entryTexts rest

end

/-- Whether a value is found inside of another one. -/
structure Within (part v : Value) : Prop where
  finite : v.isFinite = true → part.isFinite = true
  size_lt : part.size < v.size
  texts_subset : part.texts ⊆ v.texts

theorem within_list {part : Value} {items : List Value} (h : part ∈ items) :
    Within part (.list items) := by
  have inside : (itemsFinite items = true → part.isFinite = true) ∧ part.size ≤ itemsSize items ∧
      part.texts ⊆ itemTexts items := by
    induction items with
    | nil => cases h
    | cons item items ih =>
      rw [itemsFinite, itemsSize, itemTexts, Bool.and_eq_true]
      rcases List.mem_cons.mp h with rfl | h
      · exact ⟨And.left, Nat.le_add_right .., List.subset_append_left ..⟩
      · obtain ⟨finite, small, texts⟩ := ih h
        exact ⟨fun both => finite both.2, by omega,
          List.subset_append_of_subset_right _ texts⟩
  obtain ⟨finite, small, texts⟩ := inside
  exact ⟨finite, Nat.lt_succ_of_le small, texts⟩

theorem within_map {entry : Scalar × Value} {entries : List (Scalar × Value)}
    (h : entry ∈ entries) : Within entry.2 (.map entries) := by
  have inside : (entriesFinite entries = true → entry.2.isFinite = true) ∧
      entry.2.size ≤ entriesSize entries ∧ entry.2.texts ⊆ entryTexts entries := by
    induction entries with
    | nil => cases h
    | cons other entries ih =>
      rw [entriesFinite, entriesSize, entryTexts, Bool.and_eq_true]
      rcases List.mem_cons.mp h with rfl | h
      · exact ⟨And.left, Nat.le_add_right .., List.subset_append_left ..⟩
      · obtain ⟨finite, small, texts⟩ := ih h
        exact ⟨fun both => finite both.2, by omega,
          List.subset_append_of_subset_right _ texts⟩
  obtain ⟨finite, small, texts⟩ := inside
  exact ⟨finite, Nat.lt_succ_of_le small, texts⟩

theorem within_pair_first (first second : Value) : Within first (.pair first second) := by
  refine ⟨fun both => ?_, ?_, List.subset_append_left ..⟩
  · rw [isFinite, Bool.and_eq_true] at both
    exact both.1
  · rw [size]
    omega

theorem within_pair_second (first second : Value) : Within second (.pair first second) := by
  refine ⟨fun both => ?_, ?_, List.subset_append_right ..⟩
  · rw [isFinite, Bool.and_eq_true] at both
    exact both.2
  · rw [size]
    omega

theorem Within.trans {part middle v : Value} (first : Within part middle)
    (second : Within middle v) : Within part v :=
  ⟨fun h => first.finite (second.finite h), Nat.lt_trans first.size_lt second.size_lt,
    List.Subset.trans first.texts_subset second.texts_subset⟩

theorem size_pos (v : Value) : 0 < v.size := by
  cases v <;> simp [size]

theorem opened_of_finite {v : Value} (h : v.isFinite = true) : v.opened = v := by
  cases v with
  | knot => cases h
  | _ => rfl

theorem opened_of_isMap {v : Value} (h : v.isMap = true) :
    ∃ entries, v.opened = .map entries := by
  rw [isMap] at h
  cases opened : v.opened with
  | map entries => exact ⟨entries, rfl⟩
  | _ => simp [opened] at h

mutual

theorem length_texts_le : (v : Value) → v.texts.length ≤ v.size
  | .scalar s => by cases s <;> simp [texts, size]
  | .list items => by
    have := length_itemTexts_le items
    rw [texts, size]
    omega
  | .map entries => by
    have := length_entryTexts_le entries
    rw [texts, size]
    omega
  | .set members => by simp [texts]
  | .pair first second => by
    have := length_texts_le first
    have := length_texts_le second
    rw [texts, size, List.length_append]
    omega
  | .knot name body => by simp [texts]
  | .again name => by simp [texts]

theorem length_itemTexts_le : (items : List Value) → (itemTexts items).length ≤ itemsSize items
  | [] => by simp [itemTexts]
  | v :: rest => by
    have := length_texts_le v
    have := length_itemTexts_le rest
    rw [itemTexts, itemsSize, List.length_append]
    omega

theorem length_entryTexts_le :
    (entries : List (Scalar × Value)) → (entryTexts entries).length ≤ entriesSize entries
  | [] => by simp [entryTexts]
  | (_, v) :: rest => by
    have := length_texts_le v
    have := length_entryTexts_le rest
    rw [entryTexts, entriesSize, List.length_append]
    omega

end

theorem mem_of_get? {same : Scalar → Scalar → Bool} {key : Scalar} {part : Value}
    {entries : List (Scalar × Value)} (h : Entries.get? same key entries = some part) :
    ∃ entry ∈ entries, entry.2 = part := by
  induction entries with
  | nil => cases h
  | cons entry entries ih =>
    rw [Entries.get?] at h
    split at h
    · exact ⟨entry, by simp, Option.some.inj h⟩
    · obtain ⟨other, member, here⟩ := ih h
      exact ⟨other, by simp [member], here⟩

variable {v part : Value}

theorem within_of_get? (finite : v.isFinite = true) {key : String} (h : v.get? key = some part) :
    Within part v := by
  rw [get?, opened_of_finite finite] at h
  split at h
  next entries =>
    obtain ⟨entry, member, rfl⟩ := mem_of_get? h
    exact within_map member
  next => cases h

/-- The elements of a value are scalars or found inside of it. -/
theorem within_of_elements (finite : v.isFinite = true) {elements : List Value}
    (h : v.elements = .ok elements) (member : part ∈ elements) :
    (∃ s, part = .scalar s) ∨ Within part v := by
  rw [Value.elements, opened_of_finite finite] at h
  split at h
  next items =>
    cases h
    exact .inr (within_list member)
  next entries =>
    cases h
    obtain ⟨entry, _, rfl⟩ := List.mem_map.mp member
    exact .inl ⟨_, rfl⟩
  next members =>
    cases h
    obtain ⟨s, _, rfl⟩ := List.mem_map.mp member
    exact .inl ⟨_, rfl⟩
  next first second =>
    cases h
    rcases List.mem_cons.mp member with rfl | member
    · exact .inr (within_pair_first ..)
    · rw [List.mem_singleton.mp member]
      exact .inr (within_pair_second ..)
  next s =>
    cases h
    obtain ⟨unit, _, rfl⟩ := List.mem_map.mp member
    exact .inl ⟨_, rfl⟩
  next bytes =>
    cases h
    obtain ⟨byte, _, rfl⟩ := List.mem_map.mp member
    exact .inl ⟨_, rfl⟩
  next => cases h

theorem within_of_first (finite : v.isFinite = true) (h : v.first = .ok part) :
    (∃ s, part = .scalar s) ∨ Within part v := by
  rw [Value.first, opened_of_finite finite] at h
  split at h
  next entries =>
    split at h
    next found =>
      cases h
      obtain ⟨entry, member, rfl⟩ := mem_of_get? found
      exact .inr (within_map member)
    next => cases h
  next => cases h
  next =>
    obtain ⟨elements, found, h⟩ := bind_eq_ok.mp h
    cases elements with
    | nil => cases h
    | cons part rest =>
      cases h
      exact within_of_elements finite found (by simp)

theorem within_of_entries (finite : v.isFinite = true) {entries : List (Scalar × Value)}
    (h : v.entries = .ok entries) {entry : Scalar × Value} (member : entry ∈ entries) :
    Within entry.2 v := by
  rw [Value.entries, opened_of_finite finite] at h
  split at h
  next =>
    cases h
    exact within_map member
  next => cases h

end Value

end ApiBinding
