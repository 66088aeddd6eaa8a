import ApiBinding.Method.Render
import ApiBinding.Proofs.Code.Reading
import ApiBinding.Proofs.Outcome
import ApiBinding.Proofs.Text.Lines

/-!
Docstrings are no code: whatever a summary holds, three quotes in a row do not stand in it by the
time it is written between such.
-/

namespace ApiBinding.Code

/-- Whether characters spell a text inside of triple quotes. Numbers of the quotes that would end
the literal stand in front of the text and at its end. -/
inductive Spells : Nat → List Char → List Char → Nat → Prop
  | nil {n : Nat} (few : n ≤ 2) : Spells n [] [] n
  | quote {n m : Nat} {text written : List Char} (few : n + 1 ≤ 2)
      (rest : Spells (n + 1) text written m) : Spells n ('"' :: text) ('"' :: written) m
  | three {m : Nat} {text written : List Char} (rest : Spells 0 text written m) :
      Spells 0 ('"' :: '"' :: '"' :: text)
        ('\\' :: '"' :: '\\' :: '"' :: '\\' :: '"' :: written) m
  | backslash {n m : Nat} {text written : List Char} (few : n ≤ 2)
      (rest : Spells 0 text written m) : Spells n ('\\' :: text) ('\\' :: '\\' :: written) m
  | other {n m : Nat} {c : Char} {text written : List Char} (few : n ≤ 2) (noQuote : c ≠ '"')
      (noEscape : c ≠ '\\') (rest : Spells 0 text written m) :
      Spells n (c :: text) (c :: written) m

section

variable {n m k : Nat} {text written text' written' : List Char}

theorem Spells.few (h : Spells n text written m) : n ≤ 2 := by
  cases h with
  | quote few => omega
  | three => omega
  | _ => assumption

theorem Spells.few_after (h : Spells n text written m) : m ≤ 2 := by
  induction h with
  | nil few => exact few
  | _ => assumption

theorem Spells.append (h : Spells n text written m) (h' : Spells m text' written' k) :
    Spells n (text ++ text') (written ++ written') k := by
  induction h with
  | nil => exact h'
  | quote few _ ih => exact .quote few (ih h')
  | three _ ih => exact .three (ih h')
  | backslash few _ ih => exact .backslash few (ih h')
  | other few noQuote noEscape _ ih => exact .other few noQuote noEscape (ih h')

theorem Spells.read (h : Spells n text written m) :
    read (.long '"' n false) written = ([], .long '"' m false) := by
  have escape (n : Nat) : step (.long '"' n false) '\\' = ([], .long '"' 0 true) := by simp [step]
  have escaped (c : Char) : step (.long '"' 0 true) c = ([], .long '"' 0 false) := by simp [step]
  induction h with
  | nil => rfl
  | @quote n m text written few _ ih =>
    have more : n ≠ 2 := by omega
    have next : step (.long '"' n false) '"' = ([], .long '"' (n + 1) false) := by
      simp [step, more]
    rw [read_cons, next, ih]
    rfl
  | three _ ih =>
    simp only [read_cons, escape, escaped, ih]
    rfl
  | backslash few _ ih =>
    simp only [read_cons, escape, escaped, ih]
    rfl
  | @other n m c text written few noQuote noEscape _ ih =>
    have next : step (.long '"' n false) c = ([], .long '"' 0 false) := by
      simp [step, noQuote, noEscape]
    rw [read_cons, next, ih]
    rfl

theorem Spells.eq_nil_iff (h : Spells n text written m) : text = [] ↔ written = [] := by
  cases h <;> simp

theorem Spells.head?_eq_lineFeed (h : Spells n text written m) :
    text.head? = some '\n' ↔ written.head? = some '\n' := by
  cases h <;> simp

/-- Where a line of the text ends, so does one of what is written. -/
theorem Spells.linesFrom {start start' : List Char} (begun : Spells 0 start.reverse start'.reverse n)
    (h : Spells n text written m) :
    List.Forall₂ (fun line line' => ∃ k, Spells 0 line line' k) (Text.linesFrom start text)
      (Text.linesFrom start' written) := by
  have inside {c : Char} (none : Text.isLineEnd c = false) {cs : List Char} (start : List Char) :
      Text.linesFrom start (c :: cs) = Text.linesFrom (c :: start) cs := Text.linesFrom_within none
  induction h generalizing start start' with
  | nil =>
    generalize spelled : start.reverse = line at begun
    generalize writes : start'.reverse = line' at begun
    have same : start = [] ↔ start' = [] := by
      rw [← List.reverse_eq_nil_iff, spelled, begun.eq_nil_iff, ← writes, List.reverse_eq_nil_iff]
    simp only [Text.linesFrom, List.isEmpty_iff, same, spelled, writes]
    split
    · exact .nil
    · exact .cons ⟨_, begun⟩ .nil
  | quote few _ ih =>
    rw [inside (by decide), inside (by decide)]
    refine ih ?_
    simpa using begun.append (.quote few (.nil few))
  | three _ ih =>
    simp only [inside (c := '"') (by decide), inside (c := '\\') (by decide)]
    refine ih ?_
    simpa using begun.append (.three (.nil (Nat.zero_le 2)))
  | backslash few _ ih =>
    simp only [inside (c := '\\') (by decide)]
    refine ih ?_
    simpa using begun.append (.backslash few (.nil (Nat.zero_le 2)))
  | @other n m c text written few noQuote noEscape rest ih =>
    cases ends : Text.isLineEnd c with
    | false =>
      rw [inside ends, inside ends]
      refine ih ?_
      simpa using begun.append (.other few noQuote noEscape (.nil (Nat.zero_le 2)))
    | true =>
      simp only [Text.linesFrom_end ends, rest.head?_eq_lineFeed]
      have further := @ih [] [] (.nil (Nat.zero_le 2))
      refine .cons ⟨_, begun⟩ ?_
      generalize Text.linesFrom [] text = lines at further
      generalize Text.linesFrom [] written = lines' at further
      split
      · cases further with
        | nil => exact .nil
        | cons _ further => exact further
      · exact further

end

/-- The number of quotes at the front. -/
def leading : List Char → Nat
  | '"' :: rest => leading rest + 1
  | _ => 0

def doubled (cs : List Char) : List Char :=
  cs.flatMap fun c => if '\\' = c then ['\\', '\\'] else [c]

def tripled (cs : List Char) : List Char :=
  Text.replaceFrom "\"\"\"".toList "\\\"\\\"\\\"".toList 0 cs

theorem doubled_other {c : Char} (noEscape : c ≠ '\\') (rest : List Char) :
    doubled (c :: rest) = c :: doubled rest := by
  simp [doubled, Ne.symm noEscape]

theorem tripled_other {c : Char} (noQuote : c ≠ '"') (rest : List Char) :
    tripled (c :: rest) = c :: tripled rest := by
  simp [tripled, Text.replaceFrom, Text.after?, Ne.symm noQuote]

theorem tripled_three (rest : List Char) :
    tripled ('"' :: '"' :: '"' :: rest) = "\\\"\\\"\\\"".toList ++ tripled rest := by
  cases rest <;> simp [tripled, Text.replaceFrom, Text.after?]

theorem doubled_quote (rest : List Char) : doubled ('"' :: rest) = '"' :: doubled rest :=
  doubled_other (by decide) rest

theorem head_doubled {c : Char} (noQuote : c ≠ '"') (rest : List Char) :
    ∃ d more, doubled (c :: rest) = d :: more ∧ d ≠ '"' := by
  by_cases escape : c = '\\'
  · subst escape
    exact ⟨'\\', '\\' :: doubled rest, by simp [doubled], by decide⟩
  · exact ⟨c, doubled rest, doubled_other escape rest, noQuote⟩

theorem tripled_quote {rest : List Char} (few : leading rest ≤ 1) :
    tripled ('"' :: doubled rest) = '"' :: tripled (doubled rest) := by
  have alone : Text.after? "\"\"\"".toList ('"' :: doubled rest) = none := by
    match rest with
    | [] => rfl
    | c :: rest =>
      by_cases quote : c = '"'
      · subst quote
        rw [doubled_quote]
        match rest with
        | [] => rfl
        | d :: rest =>
          have noQuote : d ≠ '"' := by
            rintro rfl
            simp only [leading] at few
            omega
          obtain ⟨e, more, text, noQuote⟩ := head_doubled noQuote rest
          simp [text, Text.after?, Ne.symm noQuote]
      · obtain ⟨d, more, text, noQuote⟩ := head_doubled quote rest
        simp [text, Text.after?, Ne.symm noQuote]
  rw [tripled, Text.replaceFrom, alone]
  rfl

theorem exists_of_two_le_leading {cs : List Char} (many : 2 ≤ leading cs) :
    ∃ rest, cs = '"' :: '"' :: rest := by
  unfold leading at many
  split at many
  next rest =>
    unfold leading at many
    split at many
    next rest => exact ⟨rest, rfl⟩
    next => omega
  next => omega

/-- With backslashes doubled and three quotes in a row escaped, a text stays inside. -/
theorem spells_escaped (cs : List Char) (n : Nat) (few : n ≤ 2)
    (room : n + leading cs ≤ 2 ∨ n = 0) : ∃ m, Spells n cs (tripled (doubled cs)) m := by
  -- Three quotes are passed at once, so that the induction is on the length. Where three are met, all
  -- quotes before them in the row have been escaped, which `room` keeps.
  induction size : cs.length using Nat.strongRecOn generalizing cs n with
  | _ size ih =>
    subst size
    obtain _ | ⟨c, rest⟩ := cs
    · exact ⟨n, .nil few⟩
    by_cases quote : c = '"'
    · subst quote
      rw [doubled_quote]
      by_cases many : 2 ≤ leading rest
      · obtain ⟨rest, rfl⟩ := exists_of_two_le_leading many
        obtain rfl : n = 0 := by
          simp only [leading] at room
          omega
        obtain ⟨m, rest'⟩ := ih rest.length (by simp; omega) rest 0 (by omega) (.inr rfl) rfl
        rw [doubled_quote, doubled_quote, tripled_three]
        exact ⟨m, .three rest'⟩
      · rw [tripled_quote (by omega)]
        have room : n + 1 + leading rest ≤ 2 := by
          rw [leading] at room
          omega
        obtain ⟨m, rest'⟩ := ih _ (by simp) rest (n + 1) (by omega) (.inl room) rfl
        exact ⟨m, .quote (by omega) rest'⟩
    · obtain ⟨m, rest'⟩ := ih rest.length (by simp) rest 0 (by omega) (.inr rfl) rfl
      by_cases escape : c = '\\'
      · subst escape
        have text : doubled ('\\' :: rest) = '\\' :: '\\' :: doubled rest := by simp [doubled]
        rw [text, tripled_other (by decide), tripled_other (by decide)]
        exact ⟨m, .backslash few rest'⟩
      · rw [doubled_other escape, tripled_other quote]
        exact ⟨m, .other few quote escape rest'⟩

/-- Whether what is written spells a line of a text. -/
def SpellsLine (line written : String) : Prop := ∃ m, Spells 0 line.toList written.toList m

theorem spells_lines (text : String) :
    List.Forall₂ SpellsLine (Text.lines text) (Text.lines (Docstring.escaped text)) := by
  have twice : (Text.replaced "\\" "\\\\" text).toList = doubled text.toList := by
    rw [Text.replaced, String.toList_ofList]
    exact Text.replaceFrom_single ..
  have whole : (Docstring.escaped text).toList = tripled (doubled text.toList) := by
    rw [Docstring.escaped, Text.replaced, String.toList_ofList, twice]
    rfl
  obtain ⟨m, spelled⟩ := spells_escaped text.toList 0 (by omega) (.inr rfl)
  rw [Text.lines, Text.lines, whole, List.forall₂_map_left_iff, List.forall₂_map_right_iff]
  have begun : Spells 0 (List.reverse []) (List.reverse []) 0 := .nil (Nat.zero_le 2)
  refine (begun.linesFrom spelled).imp fun line line' h => ?_
  rwa [SpellsLine, String.toList_ofList, String.toList_ofList]

theorem readLine_inside {line written : String} (h : SpellsLine line written) :
    readLine (.long '"' 0 false) (Docstring.furtherLine bodyIndent written) =
      ([], .long '"' 0 false) := by
  obtain ⟨m, h⟩ := h
  unfold Docstring.furtherLine
  split
  next => rfl
  next =>
    have indent : read (.long '"' 0 false) bodyIndent.toList = ([], .long '"' 0 false) := by decide
    rw [readLine, String.toList_append, read_append, indent]
    dsimp only
    rw [h.read]
    rfl

theorem readLines_inside {texts lines : List String} (h : List.Forall₂ SpellsLine texts lines) :
    readLines (.long '"' 0 false) (lines.map (Docstring.furtherLine bodyIndent)) =
      ([], .long '"' 0 false) := by
  induction h with
  | nil => rfl
  | cons first _ ih =>
    rw [List.map_cons, readLines, readLine_inside first]
    dsimp only
    rw [ih]
    rfl

/-- Docstrings name nothing, whatever the summary holds. -/
theorem reads_docstring (summary : String) (deprecated : Bool) :
    Reads [] (Docstring.lines bodyIndent summary deprecated) := by
  have spelled := spells_lines (Docstring.content summary deprecated)
  have opens : read (.plain []) (bodyIndent ++ "\"\"\"").toList = ([], .long '"' 0 false) := by
    decide
  unfold Docstring.lines
  split
  next => exact .nil
  next line only =>
    rw [only] at spelled
    obtain ⟨text, _, m, first⟩ := exists_of_forall₂ spelled (List.mem_cons_self ..)
    have few := first.few_after
    have closes : readLine (.long '"' m false) "\"\"\"" = ([], .plain []) := by
      obtain rfl | rfl | rfl : m = 0 ∨ m = 1 ∨ m = 2 := by omega
      all_goals decide
    have whole : readLine (.plain []) (bodyIndent ++ "\"\"\"" ++ line ++ "\"\"\"") =
        ([], .plain []) := by
      rw [readLine, String.toList_append, String.toList_append, read_append, read_append, opens]
      dsimp only
      rw [first.read]
      exact closes
    exact reads_of_nothing (by rw [readLines, whole]; rfl)
  next line rest _ several =>
    rw [several] at spelled
    obtain ⟨text, texts, ⟨m, first⟩, rest, _⟩ := List.forall₂_cons_right_iff.mp spelled
    have opened : readLine (.plain []) (bodyIndent ++ "\"\"\"" ++ line) =
        ([], .long '"' 0 false) := by
      rw [readLine, String.toList_append, read_append, opens]
      dsimp only
      rw [first.read]
      rfl
    have closes : readLines (.long '"' 0 false) [bodyIndent ++ "\"\"\""] = ([], .plain []) := by
      decide
    refine reads_of_nothing ?_
    rw [List.cons_append, readLines, opened]
    dsimp only
    rw [readLines_append, readLines_inside rest]
    dsimp only
    rw [closes]
    rfl

end ApiBinding.Code
