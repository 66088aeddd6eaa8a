import ApiBinding.Proofs.Text.Blank
import ApiBinding.Proofs.Text.Pieces
import ApiBinding.Text.Lines

/-!
Lines of texts: those of lines that were put together, and the first one of a text without blanks
at its ends.
-/

namespace ApiBinding.Text

variable {c : Char} {start cs rest : List Char} {s line : String}

theorem OneLine.not_mem_feed (one : OneLine s) : '\n' ∉ s.toList :=
  fun member => absurd (one _ member) (by decide)

instance (s : String) : Decidable (OneLine s) :=
  decidable_of_iff (s.toList.all fun c => !isLineEnd c) (by simp [OneLine])

@[simp] theorem oneLine_append {s t : String} : OneLine (s ++ t) ↔ OneLine s ∧ OneLine t := by
  simp only [OneLine, String.toList_append, List.forall_mem_append]

theorem oneLine_joined {separator : String} (one : OneLine separator) {texts : List String} :
    OneLine (joined separator texts) ↔ ∀ text ∈ texts, OneLine text := by
  induction texts with
  | nil => simp [joined, OneLine]
  | cons s rest ih =>
    cases rest with
    | nil => simp [joined]
    | cons t rest =>
      rw [joined_cons_cons, oneLine_append, oneLine_append, ih, and_iff_left one]
      exact List.forall_mem_cons.symm

theorem linesFrom_within (inside : isLineEnd c = false) :
    linesFrom start (c :: rest) = linesFrom (c :: start) rest := by
  rw [linesFrom.eq_def start]
  split
  · contradiction
  next same =>
    obtain ⟨rfl, rfl⟩ := List.cons.inj same
    cases inside
  next same =>
    obtain ⟨rfl, rfl⟩ := List.cons.inj same
    rw [inside, if_neg Bool.false_ne_true]

theorem linesFrom_end (ends : isLineEnd c = true) :
    linesFrom start (c :: rest) = start.reverse ::
      if c = '\r' ∧ rest.head? = some '\n' then (linesFrom [] rest).tail
      else linesFrom [] rest := by
  by_cases pair : c = '\r' ∧ rest.head? = some '\n'
  · rw [if_pos pair]
    obtain ⟨rfl, head⟩ := pair
    obtain ⟨rest, rfl⟩ := List.head?_eq_some_iff.mp head
    rfl
  · rw [if_neg pair]
    rw [linesFrom.eq_def start]
    split
    · contradiction
    next same =>
      obtain ⟨rfl, rfl⟩ := List.cons.inj same
      exact absurd ⟨rfl, rfl⟩ pair
    next same =>
      obtain ⟨rfl, rfl⟩ := List.cons.inj same
      rw [if_pos ends]

theorem linesFrom_append (inside : ∀ c ∈ cs, isLineEnd c = false) (start rest : List Char) :
    linesFrom start (cs ++ rest) = linesFrom (cs.reverse ++ start) rest := by
  induction cs generalizing start with
  | nil => rfl
  | cons c cs ih =>
    rw [List.forall_mem_cons] at inside
    rw [List.cons_append, linesFrom_within inside.1, ih inside.2]
    simp

theorem lines_append (one : OneLine line) (s : String) :
    lines (line ++ "\n" ++ s) = line :: lines s := by
  have text : (line ++ "\n" ++ s).toList = line.toList ++ '\n' :: s.toList := by simp
  rw [lines, text, linesFrom_append one, linesFrom_end (by decide), if_neg (by simp)]
  simp [lines]

theorem lines_of_oneLine (one : OneLine line) (filled : line ≠ "") : lines line = [line] := by
  have read := linesFrom_append one [] []
  rw [List.append_nil] at read
  rw [lines, read, linesFrom]
  simp [filled]

theorem oneLine_of_mem_lines : ∀ line ∈ lines s, OneLine line := by
  have each (start cs : List Char) (begun : ∀ c ∈ start, isLineEnd c = false) :
      ∀ line ∈ linesFrom start cs, ∀ c ∈ line, isLineEnd c = false := by
    fun_induction linesFrom start cs with
    | case1 => exact nofun
    | case2 start filled => simpa using begun
    | case3 start rest ih =>
      rw [List.forall_mem_cons]
      exact ⟨by simpa using begun, ih nofun⟩
    | case4 start c rest _ ends ih =>
      rw [List.forall_mem_cons]
      exact ⟨by simpa using begun, ih nofun⟩
    | case5 start c rest _ inside ih =>
      exact ih (List.forall_mem_cons.mpr ⟨by simpa using inside, begun⟩)
  intro line member
  obtain ⟨cs, inside, rfl⟩ := List.mem_map.mp member
  rw [OneLine, String.toList_ofList]
  exact each [] s.toList nofun cs inside

/-- The first line of a text that starts with no line end is not empty. -/
theorem head_lines (starts : s.toList.head?.any (fun c => !isLineEnd c) = true) :
    ∃ line rest, lines s = line :: rest ∧ line ≠ "" := by
  have each (start cs : List Char) (begun : start ≠ []) :
      ∃ line rest, linesFrom start cs = line :: rest ∧ line ≠ [] := by
    fun_induction linesFrom start cs with
    | case1 start empty => exact absurd (List.isEmpty_iff.mp empty) begun
    | case2 start => exact ⟨_, _, rfl, by simpa using begun⟩
    | case3 start rest => exact ⟨_, _, rfl, by simpa using begun⟩
    | case4 start c rest => exact ⟨_, _, rfl, by simpa using begun⟩
    | case5 start c rest _ _ ih => exact ih (List.cons_ne_nil _ _)
  rw [lines]
  cases text : s.toList with
  | nil =>
    rw [text] at starts
    cases starts
  | cons c cs =>
    rw [text] at starts
    obtain ⟨line, rest, read, filled⟩ := each [c] cs (List.cons_ne_nil _ _)
    have inside : isLineEnd c = false := by simpa using starts
    rw [linesFrom_within inside, read]
    exact ⟨_, _, rfl, by simpa using filled⟩

theorem isBlank_of_isLineEnd (h : isLineEnd c = true) : isBlank c = true := by
  simp only [isLineEnd, isBlank, Bool.or_eq_true, Bool.and_eq_true, decide_eq_true_eq,
    beq_iff_eq] at h ⊢
  omega

theorem head_trimmed (filled : trimmed s ≠ "") :
    (trimmed s).toList.head?.any (fun c => !isLineEnd c) = true := by
  rw [trimmed, String.toList_ofList]
  have filled : trim s.toList ≠ [] := by
    intro empty
    exact filled (by rw [trimmed, empty])
  obtain ⟨c, cs, text⟩ := List.exists_cons_of_ne_nil filled
  have inside : isBlank c = false := head_trim s.toList c (by rw [text]; rfl)
  rw [text]
  cases ends : isLineEnd c with
  | true => exact absurd (isBlank_of_isLineEnd ends) (by simp [inside])
  | false => simp [ends]

theorem lines_joined {texts : List String} (one : ∀ line ∈ texts, OneLine line) :
    lines (joined "\n" (texts ++ [""])) = texts := by
  induction texts with
  | nil => rfl
  | cons s rest ih =>
    rw [List.forall_mem_cons] at one
    obtain ⟨t, more, text⟩ := List.exists_cons_of_ne_nil (l := rest ++ [""]) (by simp)
    rw [List.cons_append, text, joined_cons_cons, lines_append one.1, ← text, ih one.2]

end ApiBinding.Text
