import ApiBinding.Entries
import Mathlib.Data.List.Basic
import Mathlib.Data.List.Induction
import Mathlib.Logic.Function.Basic

/-!
Lists without repetition and entries: which elements are kept, which one is found first, and what
writing to a key does to entries that are the graph of a function.
-/

namespace ApiBinding.Entries

variable {α κ : Type}

theorem distinct_sublist (same : α → α → Bool) (xs : List α) : (distinct same xs).Sublist xs := by
  induction xs with
  | nil => exact .slnil
  | cons x xs ih => exact (List.filter_sublist.trans ih).cons_cons x

theorem distinct_eq_nil {same : α → α → Bool} {xs : List α} : distinct same xs = [] ↔ xs = [] := by
  cases xs <;> simp [distinct]

theorem pairwise_distinct (same : α → α → Bool) (xs : List α) :
    (distinct same xs).Pairwise fun a b => same a b = false := by
  induction xs with
  | nil => exact .nil
  | cons x xs ih =>
    refine List.pairwise_cons.mpr ⟨fun b hb => ?_, ih.filter _⟩
    simpa using (List.mem_filter.mp hb).2

theorem distinct_congr {same same' : α → α → Bool} {xs : List α}
    (alike : ∀ a ∈ xs, ∀ b ∈ xs, same a b = same' a b) : distinct same xs = distinct same' xs := by
  induction xs with
  | nil => rfl
  | cons x xs ih =>
    have rest := ih fun a ha b hb => alike a (List.mem_cons_of_mem _ ha) b (List.mem_cons_of_mem _ hb)
    rw [distinct, distinct, rest]
    refine congrArg (x :: ·) (List.filter_congr fun b hb => ?_)
    have inside := (distinct_sublist same' xs).subset hb
    rw [alike x List.mem_cons_self b (List.mem_cons_of_mem _ inside)]

section keyed

variable [BEq κ] [LawfulBEq κ] (key : α → κ)

/-- The elements of which none before has the same key. -/
abbrev firsts (xs : List α) : List α := distinct (fun a b => key a == key b) xs

theorem nodup_map_firsts (xs : List α) : ((firsts key xs).map key).Nodup := by
  refine List.pairwise_map.mpr ((pairwise_distinct _ xs).imp ?_)
  intro a b h
  simpa using h

/-- What is looked for by its key is found among the first elements just as among all. -/
theorem find?_firsts {p : α → Bool} (keyed : ∀ a b, key a = key b → p a = p b) (xs : List α) :
    (firsts key xs).find? p = xs.find? p := by
  induction xs with
  | nil => rfl
  | cons x xs ih =>
    by_cases hx : p x
    · simp [firsts, distinct, hx]
    · have kept : ∀ a, (!key x == key a && p a) = p a := by
        intro a
        by_cases ha : key x = key a
        · simp [ha, ← keyed x a ha, hx]
        · simp [ha]
      rw [firsts, distinct, List.find?_cons, List.find?_cons, List.find?_filter, ← ih]
      simp [kept, hx]

theorem find?_key_firsts (k : κ) (xs : List α) :
    (firsts key xs).find? (key · == k) = xs.find? (key · == k) :=
  find?_firsts key (fun a b same => by rw [same]) xs

theorem key_mem_map_firsts {k : κ} {xs : List α} :
    k ∈ (firsts key xs).map key ↔ k ∈ xs.map key := by
  have h := congrArg Option.isSome (find?_key_firsts key k xs)
  rw [Bool.eq_iff_iff, List.find?_isSome, List.find?_isSome] at h
  simpa using h

theorem find?_of_mem {xs : List α} (different : (xs.map key).Nodup) {x : α} (h : x ∈ xs) :
    xs.find? (key · == key x) = some x := by
  induction xs with
  | nil => cases h
  | cons y xs ih =>
    obtain ⟨fresh, different⟩ := List.nodup_cons.mp different
    rcases List.mem_cons.mp h with rfl | h
    · simp
    · have : key y ≠ key x := fun same => fresh (same ▸ List.mem_map_of_mem h)
      simpa [this] using ih different h

theorem mem_firsts {x : α} {xs : List α} :
    x ∈ firsts key xs ↔ xs.find? (key · == key x) = some x := by
  rw [← find?_key_firsts]
  exact ⟨find?_of_mem key (nodup_map_firsts key xs), List.mem_of_find?_eq_some⟩

theorem find?_flatMap_firsts {β : Type} (k : κ) (f : β → List α) (ys : List β) :
    (ys.flatMap fun y => firsts key (f y)).find? (key · == k) =
      (ys.flatMap f).find? (key · == k) := by
  induction ys with
  | nil => rfl
  | cons y ys ih => simp only [List.flatMap_cons, List.find?_append, find?_key_firsts, ih]

end keyed

section graph

variable [BEq κ] [LawfulBEq κ] [DecidableEq κ]

theorem get?_graph (f : κ → α) (k : κ) (keys : List κ) :
    get? (· == ·) k (keys.map fun key => (key, f key)) = if k ∈ keys then some (f k) else none := by
  induction keys with
  | nil => rfl
  | cons key keys ih =>
    by_cases h : key = k
    · simp [get?, h]
    · simp [get?, h, ih, Ne.symm h]

theorem put_graph (f : κ → α) (k : κ) (a : α) (keys : List κ) (distinctKeys : keys.Nodup) :
    put (· == ·) k a (keys.map fun key => (key, f key)) =
      (if k ∈ keys then keys else keys ++ [k]).map fun key => (key, Function.update f k a key) := by
  induction keys with
  | nil => simp [put]
  | cons key keys ih =>
    obtain ⟨hkey, hkeys⟩ := List.nodup_cons.mp distinctKeys
    by_cases h : key = k
    · subst h
      -- No key comes twice, so the function is the same on the rest of the keys.
      have others : ∀ key' ∈ keys, Function.update f key a key' = f key' := fun key' hk =>
        Function.update_of_ne (by rintro rfl; exact hkey hk) _ _
      simp only [List.map_cons, put, beq_self_eq_true, if_true, List.mem_cons, true_or,
        Function.update_self, List.cons.injEq, true_and]
      exact List.map_congr_left fun key' hk => by rw [others key' hk]
    · have hk : k ∈ key :: keys ↔ k ∈ keys := by simp [Ne.symm h]
      simp only [List.map_cons, put, beq_iff_eq, h, if_false, ih hkeys, hk]
      split <;> simp [Function.update_of_ne h]

end graph

theorem get?_put [BEq κ] [LawfulBEq κ] [DecidableEq κ] (k key : κ) (a : α)
    (entries : List (κ × α)) :
    get? (· == ·) k (put (· == ·) key a entries) =
      if key = k then some a else get? (· == ·) k entries := by
  induction entries with
  | nil => simp [put, get?]
  | cons entry entries ih =>
    by_cases here : entry.1 = key
    · subst here
      by_cases same : entry.1 = k <;> simp [put, get?, same]
    · by_cases same : key = k
      · subst same
        simp [put, get?, here, ih]
      · simp [put, get?, here, ih, same]

theorem firsts_concat [BEq κ] [LawfulBEq κ] [DecidableEq κ] (k : κ) (keys : List κ) :
    firsts id (keys ++ [k]) =
      if k ∈ keys then firsts id keys else firsts id keys ++ [k] := by
  induction keys with
  | nil => rfl
  | cons key keys ih =>
    simp only [firsts, List.cons_append, distinct, id_eq] at ih ⊢
    rw [ih]
    by_cases h : key = k
    · subst h
      split <;> simp
    · split <;> simp_all [Ne.symm h]

theorem firsts_id_eq_eraseDups [BEq κ] [LawfulBEq κ] [DecidableEq κ] (keys : List κ) :
    firsts id keys = keys.eraseDups := by
  induction keys using List.reverseRecOn with
  | nil => rfl
  | append_singleton keys key ih =>
    rw [firsts_concat, List.eraseDups_append, ih]
    by_cases h : key ∈ keys <;> simp [h, List.removeAll, List.eraseDups_cons]

theorem eraseDups_concat [BEq κ] [LawfulBEq κ] [DecidableEq κ] (k : κ) (keys : List κ) :
    (keys ++ [k]).eraseDups = if k ∈ keys then keys.eraseDups else keys.eraseDups ++ [k] := by
  simp only [← firsts_id_eq_eraseDups, firsts_concat]

theorem nodup_eraseDups [BEq κ] [LawfulBEq κ] [DecidableEq κ] (keys : List κ) :
    keys.eraseDups.Nodup := by
  have nodup := nodup_map_firsts id keys
  rwa [List.map_id, firsts_id_eq_eraseDups] at nodup

end ApiBinding.Entries
