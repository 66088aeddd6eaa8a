import ApiBinding.NameTable
import ApiBinding.Proofs.Outcome

/-!
What names in a table stand for, and why a name is refused.
-/

namespace ApiBinding.NameTable

variable {scope : NameScope} {table : NameTable} {name source : String}

theorem mem_of_source? (h : table.source? name = some source) : (name, source) ∈ table := by
  induction table with
  | nil => cases h
  | cons entry table ih =>
    by_cases same : entry.1 = name
    · obtain rfl : entry.2 = source := by simpa [source?, Entries.get?, same] using h
      simp [← same]
    · have rest : source? table name = some source := by
        simpa [source?, Entries.get?, same] using h
      exact List.mem_cons_of_mem _ (ih rest)

theorem enter_eq_ok {table' : NameTable} (h : table.enter scope name source = .ok table') :
    (table' = table ∧ (name, source) ∈ table) ∨ table' = table ++ [(name, source)] := by
  unfold enter at h
  split at h
  next =>
    cases h
    exact .inr rfl
  next existing hsource =>
    split at h
    next same =>
      cases h
      exact .inl ⟨rfl, same ▸ mem_of_source? hsource⟩
    next => cases h

theorem mem_of_enter {table' : NameTable} (h : table.enter scope name source = .ok table')
    {entry : String × String} : entry ∈ table' ↔ entry ∈ table ∨ entry = (name, source) := by
  rcases enter_eq_ok h with ⟨rfl, present⟩ | rfl
  · constructor
    · exact .inl
    · rintro (h | rfl)
      · exact h
      · exact present
  · simp

theorem source?_concat (table : NameTable) (name source key : String) :
    source? (table ++ [(name, source)]) key =
      (table.source? key).or (if name = key then some source else none) := by
  induction table with
  | nil => simp [source?, Entries.get?]
  | cons entry table ih =>
    by_cases same : entry.1 = key
    · simp [source?, Entries.get?, same]
    · simpa [source?, Entries.get?, same] using ih

theorem source?_of_enter {table' : NameTable} (h : table.enter scope name source = .ok table') :
    table'.source? name = some source := by
  unfold enter at h
  split at h
  next absent =>
    cases h
    simp [source?_concat, absent]
  next existing present =>
    split at h
    next same =>
      cases h
      rw [present, same]
    next => cases h

/-- What a name stands for stays, whatever is entered after it. -/
theorem source?_kept {table' : NameTable} (h : table.enter scope name source = .ok table')
    {key first : String} (present : table.source? key = some first) :
    table'.source? key = some first := by
  rcases enter_eq_ok h with ⟨rfl, -⟩ | rfl
  · exact present
  · simp [source?_concat, present]

/-- A name is refused that stands for something else. -/
theorem enter_failsOnly (scope : NameScope) (table : NameTable) (name source : String) :
    FailsOnly (fun failure => ∃ first, (name, first) ∈ table ∧ first ≠ source ∧
      failure = .collision scope name first source) (table.enter scope name source) := by
  unfold enter
  split
  next => simp
  next existing hsource =>
    split
    next => simp
    next differs => exact FailsOnly.error_iff.mpr ⟨existing, mem_of_source? hsource, differs, rfl⟩

/-- Of different names, one is refused only for what it stood for before all of them. -/
theorem enterAll_failsOnly (scope : NameScope) {entries : List (String × String)}
    (distinct : (entries.map Prod.fst).Nodup) (table : NameTable) :
    FailsOnly (fun failure => ∃ name first second, (name, second) ∈ entries ∧
      (name, first) ∈ table ∧ first ≠ second ∧ failure = .collision scope name first second)
      (table.enterAll scope entries).2 := by
  induction entries generalizing table with
  | nil => simp [enterAll]
  | cons entry entries ih =>
    obtain ⟨fresh, distinct⟩ := List.nodup_cons.mp distinct
    rw [enterAll]
    cases entered : table.enter scope entry.1 entry.2 with
    | error failure =>
      obtain ⟨first, present, differs, rfl⟩ := enter_failsOnly scope table _ _ failure entered
      exact FailsOnly.error_iff.mpr ⟨entry.1, first, entry.2, by simp, present, differs, rfl⟩
    | ok table' =>
      refine (ih distinct table').mono ?_
      rintro failure ⟨name, first, second, hentry, present, differs, rfl⟩
      refine ⟨name, first, second, List.mem_cons_of_mem _ hentry, ?_, differs, rfl⟩
      refine ((mem_of_enter entered).mp present).resolve_right fun same => fresh ?_
      have : name = entry.1 := congrArg Prod.fst same
      exact this ▸ List.mem_map_of_mem hentry

/-- A name that is entered stands for what it stood for before, if for anything. -/
theorem eq_of_enterAll {entries : List (String × String)}
    (h : (table.enterAll scope entries).2 = .ok ()) (entered : (name, source) ∈ entries)
    {first : String} (present : table.source? name = some first) : first = source := by
  induction entries generalizing table with
  | nil => cases entered
  | cons entry entries ih =>
    rw [enterAll] at h
    split at h
    next further step =>
      have kept := source?_kept step present
      rcases List.mem_cons.mp entered with rfl | entered
      · exact Option.some.inj (kept.symm.trans (source?_of_enter step))
      · exact ih h entered kept
    next => cases h

end ApiBinding.NameTable
