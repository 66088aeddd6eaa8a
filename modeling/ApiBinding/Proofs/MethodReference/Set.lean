import ApiBinding.Proofs.MethodReference
import ApiBinding.Proofs.Text.Quoted
import Mathlib.Data.List.Sort

/-!
Sets of references. Whatever the order of the texts that they are read from, and however often each
of them is given, the set is one and the same ascending list.
-/

namespace ApiBinding

namespace Text

variable {c : Char} {cs : List Char}

theorem plain_of_isBlank (h : isBlank c = true) : c ≠ mark ∧ isStandIn c = false := by
  have small : c.toNat ≤ 0x3000 := by
    simp only [isBlank, Bool.or_eq_true, Bool.and_eq_true, decide_eq_true_eq, beq_iff_eq] at h
    omega
  constructor
  · rintro rfl
    exact absurd small (by decide)
  · rw [isStandIn, standInShift, Nat.sub_eq_zero_of_le (by omega)]
    rfl

/-- Characters that are kept are so without the blanks at their ends. -/
theorem IsKept.trim (h : IsKept cs) : IsKept (trim cs) := by
  have start : IsKept (cs.dropWhile isBlank) := by
    induction cs with
    | nil => exact h
    | cons c cs ih =>
      rw [List.dropWhile_cons]
      split
      next blank => exact ih ((isKept_cons (plain_of_isBlank blank).1).mp h)
      next => exact h
  have whole : Text.trim cs ++ (cs.dropWhile isBlank).rtakeWhile isBlank = cs.dropWhile isBlank :=
    List.rdropWhile_append_rtakeWhile ..
  cases ending : (cs.dropWhile isBlank).rtakeWhile isBlank with
  | nil =>
    rw [ending, List.append_nil] at whole
    rwa [whole]
  | cons d ending' =>
    have blank : isBlank d = true := by
      refine List.mem_rtakeWhile_imp (l := cs.dropWhile isBlank) ?_
      rw [ending]
      exact List.mem_cons_self
    rw [← whole, ending] at start
    exact (start.split (plain_of_isBlank blank)).1

theorem precedes_trans {s t u : String} (first : precedes s t = true)
    (second : precedes t u = true) : precedes s u = true := by
  rw [precedes, decide_eq_true_eq] at first second ⊢
  exact List.lt_trans first second

theorem precedes_irrefl (s : String) : precedes s s = false :=
  decide_eq_false (List.lt_irrefl _)

end Text

namespace MethodReference

variable {reference other : MethodReference} {set : List MethodReference} {texts : List String}

/-- Whether the reference is read from a text whose marks are all needed. -/
def IsRead (reference : MethodReference) : Prop :=
  ∃ s, Text.IsRegular s ∧ parse s = .ok reference

theorem IsRead.isRegular (read : reference.IsRead) : Text.IsRegular reference.text := by
  obtain ⟨s, regular, read⟩ := read
  have kept : Text.IsKept reference.text.toList := by
    rw [← (parse_eq_ok.mp read).1]
    exact Text.IsKept.trim regular
  exact kept

theorem IsRead.eq_of_text (read : reference.IsRead) (read' : other.IsRead)
    (same : reference.text = other.text) : reference = other := by
  obtain ⟨_, _, read⟩ := read
  obtain ⟨_, _, read'⟩ := read'
  have back := parse_text read
  rw [same, parse_text read'] at back
  exact (Except.ok.inj back).symm

/-- Of two references that are read, one comes before the other. -/
theorem IsRead.precedes (read : reference.IsRead) (read' : other.IsRead)
    (different : reference ≠ other) (after : Text.precedes reference.text other.text = false) :
    Text.precedes other.text reference.text = true := by
  have codes : Text.codes other.text.toList ≠ Text.codes reference.text.toList := fun same =>
    different (read.eq_of_text read' (read.isRegular.eq_of_codes read'.isRegular same.symm))
  rw [Text.precedes, decide_eq_false_iff_not, List.not_lt] at after
  rw [Text.precedes, decide_eq_true_eq]
  exact (List.le_iff_lt_or_eq.mp after).resolve_right codes

/-- Whether the references are in the order of their texts, without repetition. -/
def Ascending (set : List MethodReference) : Prop :=
  set.Pairwise fun first second => Text.precedes first.text second.text = true

theorem mem_insert : other ∈ insert reference set ↔ other = reference ∨ other ∈ set := by
  induction set with
  | nil => simp [insert]
  | cons first set ih =>
    rw [insert]
    split
    next same => simp [same]
    next =>
      split
      next => simp
      next => simp [ih, or_left_comm]

theorem Ascending.eq_of_members {set' : List MethodReference} (ascending : Ascending set)
    (ascending' : Ascending set') (same : ∀ reference, reference ∈ set ↔ reference ∈ set') :
    set = set' := by
  have irreflexive : Std.Irrefl fun first second : MethodReference =>
      Text.precedes first.text second.text = true :=
    ⟨fun reference => by simp [Text.precedes_irrefl]⟩
  have antisymmetric : Std.Antisymm fun first second : MethodReference =>
      Text.precedes first.text second.text = true := by
    refine ⟨fun first second before after => ?_⟩
    have round := Text.precedes_trans before after
    rw [Text.precedes_irrefl] at round
    cases round
  exact ascending.eq_of_mem_iff ascending' same

theorem ascending_insert (ascending : Ascending set) (read : reference.IsRead)
    (each : ∀ other ∈ set, other.IsRead) : Ascending (insert reference set) := by
  induction set with
  | nil => exact List.pairwise_singleton _ _
  | cons first set ih =>
    obtain ⟨below, further⟩ := List.pairwise_cons.mp ascending
    rw [List.forall_mem_cons] at each
    rw [insert]
    split
    next => exact ascending
    next different =>
      split
      next before =>
        have all : ∀ other ∈ set, Text.precedes reference.text other.text = true :=
          fun other member => Text.precedes_trans before (below other member)
        exact List.pairwise_cons.mpr ⟨List.forall_mem_cons.mpr ⟨before, all⟩, ascending⟩
      next after =>
        refine List.pairwise_cons.mpr ⟨fun other member => ?_, ih further each.2⟩
        rcases mem_insert.mp member with rfl | member
        · exact read.precedes each.1 different (by simpa using after)
        · exact below other member

/-- References put into an ascending list one after the other keep it ascending and become its
members. -/
theorem foldl_insert {references : List MethodReference} (ascending : Ascending set)
    (each : ∀ other ∈ set, other.IsRead) (read : ∀ other ∈ references, other.IsRead) :
    Ascending (references.foldl (fun set reference => insert reference set) set) ∧
      ∀ other, other ∈ references.foldl (fun set reference => insert reference set) set ↔
        other ∈ references ∨ other ∈ set := by
  induction references generalizing set with
  | nil => simp [ascending]
  | cons first references ih =>
    rw [List.forall_mem_cons] at read
    have inserted : ∀ other ∈ insert first set, other.IsRead := fun other member =>
      (mem_insert.mp member).elim (fun same => same ▸ read.1) (each other)
    obtain ⟨sorted, members⟩ := ih (ascending_insert ascending read.1 each) inserted read.2
    refine ⟨sorted, fun other => ?_⟩
    rw [List.foldl_cons, members, mem_insert, List.mem_cons, or_left_comm, or_assoc]

/-- What is read from texts is an ascending list of what each of them is read as. -/
theorem setOf_of_parse (regular : ∀ s ∈ texts, Text.IsRegular s)
    {references : List MethodReference} (each : texts.mapM parse = .ok references) :
    ∃ set, setOf (texts.map Value.text) = .ok set ∧ Ascending set ∧
      ∀ reference, reference ∈ set ↔ ∃ s ∈ texts, parse s = .ok reference := by
  have parsed := mapM_eq_ok.mp each
  have members (reference : MethodReference) :
      reference ∈ references ↔ ∃ s ∈ texts, parse s = .ok reference := by
    refine ⟨exists_of_forall₂ parsed, ?_⟩
    rintro ⟨s, given, read⟩
    obtain ⟨other, member, read'⟩ := exists_of_forall₂ parsed.flip given
    rwa [← Except.ok.inj (read'.symm.trans read)]
  have read : ∀ reference ∈ references, reference.IsRead := fun reference member => by
    obtain ⟨s, given, read⟩ := (members reference).mp member
    exact ⟨s, regular s given, read⟩
  obtain ⟨ascending, inserted⟩ := foldl_insert List.Pairwise.nil nofun read
  refine ⟨_, ?_, ascending, fun reference => ?_⟩
  · exact bind_eq_ok.mpr ⟨references, List.mapM_map.trans each, rfl⟩
  · rw [inserted, members, or_iff_left List.not_mem_nil]

/-- The set read from texts is the one ascending list of what each of them is read as. -/
theorem setOf_eq_ok (regular : ∀ s ∈ texts, Text.IsRegular s) :
    setOf (texts.map Value.text) = .ok set ↔ (∀ s ∈ texts, ∃ reference, parse s = .ok reference) ∧
      Ascending set ∧ ∀ reference, reference ∈ set ↔ ∃ s ∈ texts, parse s = .ok reference := by
  constructor
  · intro read
    obtain ⟨references, each, _⟩ := bind_eq_ok.mp read
    rw [List.mapM_map] at each
    obtain ⟨set', read', rest⟩ := setOf_of_parse regular each
    obtain rfl := Except.ok.inj (read.symm.trans read')
    refine ⟨fun s given => ?_, rest⟩
    obtain ⟨reference, _, parsed⟩ := exists_of_forall₂ (mapM_eq_ok.mp each).flip given
    exact ⟨reference, parsed⟩
  · rintro ⟨parsed, ascending, members⟩
    have never : FailsOnly (fun _ => False) (texts.mapM parse) := by
      refine FailsOnly.mapM fun s given => ?_
      obtain ⟨reference, read⟩ := parsed s given
      rw [read]
      exact FailsOnly.ok _
    cases each : texts.mapM parse with
    | error failure => exact (never failure each).elim
    | ok references =>
      obtain ⟨set', read, ascending', members'⟩ := setOf_of_parse regular each
      rw [read, ascending'.eq_of_members ascending fun reference =>
        (members' reference).trans (members reference).symm]

/-- Texts with the same members are read as the same set. -/
theorem setOf_congr {texts' : List String} (regular : ∀ s ∈ texts, Text.IsRegular s)
    (same : ∀ s, s ∈ texts ↔ s ∈ texts') :
    setOf (texts.map Value.text) = .ok set ↔ setOf (texts'.map Value.text) = .ok set := by
  rw [setOf_eq_ok regular, setOf_eq_ok fun s given => regular s ((same s).mpr given)]
  simp only [same]

end MethodReference

end ApiBinding
