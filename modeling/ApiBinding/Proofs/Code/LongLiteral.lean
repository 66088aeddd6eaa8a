import ApiBinding.Proofs.Code.Docstring

/-!
Docstrings as literals: what is read between the three quotes that open a docstring and the first
three that close it. Quotes that end a single line run into those behind them, so that the literal
is closed too early by as many quotes as are not taken by threes.
-/

namespace ApiBinding.Code

open Text (joined)

/-- What a literal holds that three quotes have opened, and what stands behind the first three that
close it. Of the escapes those of backslashes and quotes are read. -/
def readLong : List Char → Option (List Char × List Char)
  | '"' :: '"' :: '"' :: rest => some ([], rest)
  | '\\' :: c :: rest =>
    if c = '\\' ∨ c = '"' then (readLong rest).map (Prod.map (c :: ·) id) else none
  | c :: rest => (readLong rest).map (Prod.map (c :: ·) id)
  | [] => none

/-- A text without the indentation in front of its lines after the first. -/
def unindented (indent text : String) : String :=
  match Text.piecesAt '\n' text with
  | [] => ""
  | first :: rest => joined "\n" (first :: rest.map fun line => (Text.rest? indent line).getD line)

/-- Whether lines are one literal between triple quotes that holds the lines of a text. -/
def IsLiteral (lines : List String) (text : String) : Prop :=
  ∃ body value, joined "\n" lines = bodyIndent ++ "\"\"\"" ++ body ∧
    readLong body.toList = some (value.toList, []) ∧
    Text.lines (unindented bodyIndent value) = Text.lines text

/-- How many quotes are left over at the end when those in a row are taken by threes, after so many
in front. -/
def leftOver : Nat → List Char → Nat
  | n, [] => n
  | n, c :: cs => leftOver (if c = '"' then (n + 1) % 3 else 0) cs

/-- The quotes that are left over at the end of a text of one line. -/
def looseQuotes (text : String) : Nat :=
  match Text.lines text with
  | [line] => leftOver 0 line.toList
  | _ => 0

section

variable {n m : Nat} {c : Char} {text written tail value rest : List Char}

theorem leftOver_append (n : Nat) (first second : List Char) :
    leftOver n (first ++ second) = leftOver (leftOver n first) second := by
  induction first generalizing n with
  | nil => rfl
  | cons c first ih => exact ih _

theorem Spells.after_eq (h : Spells n text written m) : m = leftOver n text := by
  induction h with
  | nil => rfl
  | @quote n m text written few _ ih =>
    rw [ih, leftOver, if_pos rfl, Nat.mod_eq_of_lt (by omega)]
  | three _ ih => rw [ih]; rfl
  | backslash few _ ih => rw [ih]; rfl
  | other few noQuote noEscape _ ih => rw [ih, leftOver, if_neg noQuote]

theorem readLong_other (inside : c = '"' → ∀ rest, tail ≠ '"' :: '"' :: rest) (noEscape : c ≠ '\\')
    (h : readLong tail = some (value, rest)) : readLong (c :: tail) = some (c :: value, rest) := by
  rw [readLong.eq_def]
  split
  next same =>
    obtain ⟨rfl, rfl⟩ := List.cons.inj same
    exact absurd rfl (inside rfl _)
  next same => exact absurd (List.cons.inj same).1 noEscape
  next same =>
    obtain ⟨rfl, rfl⟩ := List.cons.inj same
    rw [h]
    rfl
  next same => cases same

theorem readLong_escape (escapes : c = '\\' ∨ c = '"')
    (h : readLong tail = some (value, rest)) :
    readLong ('\\' :: c :: tail) = some (c :: value, rest) := by
  rw [readLong, if_pos escapes, h]
  rfl

/-- Up to two quotes in front of another character belong to what the literal holds. -/
theorem readLong_quotes (few : n ≤ 2) (noQuote : c ≠ '"')
    (h : readLong (c :: tail) = some (value, rest)) :
    readLong (List.replicate n '"' ++ c :: tail) = some (List.replicate n '"' ++ value, rest) := by
  have one : readLong ('"' :: c :: tail) = some ('"' :: value, rest) := by
    refine readLong_other (fun _ rest same => ?_) (by decide) h
    exact noQuote (List.cons.inj same).1
  obtain rfl | rfl | rfl : n = 0 ∨ n = 1 ∨ n = 2 := by omega
  · exact h
  · exact one
  · refine readLong_other (fun _ rest same => ?_) (by decide) one
    exact noQuote (List.cons.inj (List.cons.inj same).2).1

/-- Characters that spell a text are read as that text, but for the quotes at its end. -/
theorem Spells.reads (h : Spells n text written m)
    (ends : readLong (List.replicate m '"' ++ tail) = some (value, rest)) :
    ∃ front, List.replicate n '"' ++ text = front ++ List.replicate m '"' ∧
      readLong (List.replicate n '"' ++ (written ++ tail)) = some (front ++ value, rest) := by
  induction h with
  | nil => exact ⟨[], by simp, ends⟩
  | @quote n m text written few _ ih =>
    obtain ⟨front, same, read⟩ := ih ends
    rw [List.replicate_succ', List.append_assoc] at same read
    exact ⟨front, same, read⟩
  | @three m text written _ ih =>
    obtain ⟨front, same, read⟩ := ih ends
    refine ⟨'"' :: '"' :: '"' :: front, congrArg ('"' :: '"' :: '"' :: ·) same, ?_⟩
    exact readLong_escape (.inr rfl) (readLong_escape (.inr rfl) (readLong_escape (.inr rfl) read))
  | @backslash n m text written few _ ih =>
    obtain ⟨front, same, read⟩ := ih ends
    refine ⟨List.replicate n '"' ++ '\\' :: front, ?_, ?_⟩
    · rw [List.append_assoc, List.cons_append]
      exact congrArg (List.replicate n '"' ++ '\\' :: ·) same
    · rw [List.append_assoc]
      exact readLong_quotes few (by decide) (readLong_escape (.inl rfl) read)
  | @other n m c text written few noQuote noEscape _ ih =>
    obtain ⟨front, same, read⟩ := ih ends
    refine ⟨List.replicate n '"' ++ c :: front, ?_, ?_⟩
    · rw [List.append_assoc, List.cons_append]
      exact congrArg (List.replicate n '"' ++ c :: ·) same
    · rw [List.append_assoc]
      exact readLong_quotes few noQuote
        (readLong_other (fun quote => absurd quote noQuote) noEscape read)

theorem spells_plain (h : text.all (fun c => c != '"' && c != '\\') = true) :
    Spells 0 text text 0 := by
  induction text with
  | nil => exact .nil (Nat.zero_le 2)
  | cons c text ih =>
    rw [List.all_cons, Bool.and_eq_true, Bool.and_eq_true, bne_iff_ne, bne_iff_ne] at h
    exact .other (Nat.zero_le 2) h.1.1 h.1.2 (ih h.2)

end

theorem SpellsLine.furtherLine {line written : String} (h : SpellsLine line written) :
    SpellsLine (Docstring.furtherLine bodyIndent line)
      (Docstring.furtherLine bodyIndent written) := by
  obtain ⟨m, spelled⟩ := h
  have indent : Spells 0 bodyIndent.toList bodyIndent.toList 0 := spells_plain (by decide)
  have same : line = "" ↔ written = "" := by simpa using spelled.eq_nil_iff
  unfold Docstring.furtherLine
  by_cases empty : line = ""
  · rw [if_pos empty, if_pos (same.mp empty)]
    exact ⟨0, .nil (Nat.zero_le 2)⟩
  · rw [if_neg empty, if_neg (mt same.mpr empty)]
    rw [SpellsLine, String.toList_append, String.toList_append]
    exact ⟨m, indent.append spelled⟩

theorem spells_joined {lines written : List String} (h : List.Forall₂ SpellsLine lines written) :
    SpellsLine (joined "\n" lines) (joined "\n" written) := by
  induction h with
  | nil => exact ⟨0, .nil (Nat.zero_le 2)⟩
  | @cons line written lines _ first rest ih =>
    cases rest with
    | nil => exact first
    | cons second rest =>
      obtain ⟨m, first⟩ := first
      obtain ⟨k, further⟩ := ih
      have text {a b : String} {as : List String} :
          (joined "\n" (a :: b :: as)).toList = a.toList ++ '\n' :: (joined "\n" (b :: as)).toList := by
        simp [joined]
      rw [SpellsLine, text, text]
      exact ⟨k, first.append (.other first.few_after (by decide) (by decide) further)⟩

theorem oneLine_bodyIndent : Text.OneLine bodyIndent := by
  have inside : bodyIndent.toList.all (fun c => !Text.isLineEnd c) = true := by decide
  simpa [Text.OneLine] using inside

theorem oneLine_furtherLine {line : String} (one : Text.OneLine line) :
    Text.OneLine (Docstring.furtherLine bodyIndent line) := by
  unfold Docstring.furtherLine
  split
  · exact nofun
  · rw [Text.OneLine, String.toList_append, List.forall_mem_append]
    exact ⟨oneLine_bodyIndent, one⟩

/-- Without the indentation the lines of a docstring are what they were. -/
theorem unindented_joined {first : String} {rest : List String}
    (one : ∀ line ∈ first :: rest, Text.OneLine line) :
    unindented bodyIndent
        (joined "\n" (first :: rest.map (Docstring.furtherLine bodyIndent) ++ [bodyIndent])) =
      joined "\n" (first :: rest ++ [""]) := by
  have back (line : String) : (Text.rest? bodyIndent (Docstring.furtherLine bodyIndent line)).getD
      (Docstring.furtherLine bodyIndent line) = line := by
    unfold Docstring.furtherLine
    split
    next empty => rw [empty]; rfl
    next => rw [Text.rest?_append]; rfl
  have last : (Text.rest? bodyIndent bodyIndent).getD bodyIndent = "" := rfl
  rw [List.forall_mem_cons] at one
  have all : ∀ line ∈ first :: rest.map (Docstring.furtherLine bodyIndent) ++ [bodyIndent],
      Text.OneLine line := by
    simp only [List.cons_append, List.forall_mem_cons, List.forall_mem_append, List.forall_mem_map]
    exact ⟨one.1, fun line member => oneLine_furtherLine (one.2 line member), oneLine_bodyIndent, nofun⟩
  have each : (rest.map (Docstring.furtherLine bodyIndent)).map
      (fun line => (Text.rest? bodyIndent line).getD line) = rest := by
    rw [List.map_map]
    exact (List.map_congr_left fun line _ => back line).trans (List.map_id _)
  rw [unindented, Text.piecesAt_joined rfl (by simp) fun line member => (all line member).not_mem_feed]
  simp only [List.cons_append, List.map_append, each, List.map_cons, last, List.map_nil]

theorem unindented_of_oneLine {text : String} (one : Text.OneLine text) :
    unindented bodyIndent text = text := by
  have feed : "\n".toList = ['\n'] := rfl
  have whole : Text.piecesAt '\n' text = [text] :=
    Text.piecesAt_joined feed (List.cons_ne_nil text []) (by simpa using one.not_mem_feed)
  rw [unindented, whole]
  rfl

theorem reads_single {line written : String} (h : SpellsLine line written) :
    ∃ value, readLong (written ++ "\"\"\"").toList =
        some (value.toList, List.replicate (leftOver 0 line.toList) '"') ∧
      value ++ String.ofList (List.replicate (leftOver 0 line.toList) '"') = line := by
  obtain ⟨m, spelled⟩ := h
  have few := spelled.few_after
  have ends : readLong (List.replicate m '"' ++ "\"\"\"".toList) =
      some ([], List.replicate m '"') := by
    obtain rfl | rfl | rfl : m = 0 ∨ m = 1 ∨ m = 2 := by omega
    all_goals rfl
  obtain ⟨front, same, read⟩ := spelled.reads ends
  rw [← spelled.after_eq]
  refine ⟨String.ofList front, ?_, ?_⟩
  · rw [String.toList_append, String.toList_ofList]
    simpa using read
  · rw [← String.toList_inj, String.toList_append, String.toList_ofList, String.toList_ofList]
    exact same.symm

theorem reads_several {first first' : String} {rest rest' : List String}
    (spelled : SpellsLine first first') (further : List.Forall₂ SpellsLine rest rest') :
    readLong (joined "\n" (first' :: rest'.map (Docstring.furtherLine bodyIndent) ++
        [bodyIndent]) ++ "\"\"\"").toList =
      some ((joined "\n" (first :: rest.map (Docstring.furtherLine bodyIndent) ++
        [bodyIndent])).toList, []) := by
  have indent : SpellsLine bodyIndent bodyIndent := ⟨0, spells_plain (by decide)⟩
  have indented : List.Forall₂ SpellsLine (rest.map (Docstring.furtherLine bodyIndent))
      (rest'.map (Docstring.furtherLine bodyIndent)) := by
    rw [List.forall₂_map_left_iff, List.forall₂_map_right_iff]
    exact further.imp fun _ _ => SpellsLine.furtherLine
  obtain ⟨m, whole⟩ := spells_joined (.cons spelled (List.rel_append indented (.cons indent .nil)))
  -- The last characters are those of the indentation, so that no quote stands at the end.
  have closed : m = 0 := by
    have blank (n : Nat) : leftOver n bodyIndent.toList = 0 := rfl
    rw [whole.after_eq, ← List.cons_append, ← String.empty_append (s := bodyIndent),
      Text.joined_append_last, String.toList_append, leftOver_append, blank]
  subst closed
  have ends : readLong (List.replicate 0 '"' ++ "\"\"\"".toList) = some ([], []) := rfl
  obtain ⟨front, same, read⟩ := whole.reads ends
  obtain rfl : front = _ := by simpa using same.symm
  rw [String.toList_append]
  simpa using read

open Docstring (content)

section

variable {summary : String} {deprecated : Bool}

theorem head_content (filled : content summary deprecated ≠ "") :
    (content summary deprecated).toList.head?.any (fun c => !Text.isLineEnd c) = true := by
  unfold content at filled ⊢
  dsimp only at filled ⊢
  split
  next noted =>
    split
    · rfl
    next filled => exact Text.head_append (Text.head_trimmed filled) _
  next plain => exact Text.head_trimmed (by simpa [plain] using filled)

/-- A docstring is opened by three quotes; behind the first three that close it stand the quotes
that are left over at the end of a single line. -/
theorem reads_literal (filled : content summary deprecated ≠ "") :
    ∃ body value, joined "\n" (Docstring.lines bodyIndent summary deprecated) =
        bodyIndent ++ "\"\"\"" ++ body ∧
      readLong body.toList = some (value.toList,
        List.replicate (looseQuotes (content summary deprecated)) '"') ∧
      Text.lines (unindented bodyIndent value ++ String.ofList
        (List.replicate (looseQuotes (content summary deprecated)) '"')) =
          Text.lines (content summary deprecated) := by
  obtain ⟨line, rest, lines, starts⟩ := Text.head_lines (head_content filled)
  have one : ∀ other ∈ line :: rest, Text.OneLine other := by
    rw [← lines]
    exact Text.oneLine_of_mem_lines
  have spelled := spells_lines (content summary deprecated)
  rw [lines] at spelled
  obtain ⟨first, further, spells, others, written⟩ := List.forall₂_cons_left_iff.mp spelled
  cases others with
  | nil =>
    have loose : looseQuotes (content summary deprecated) = leftOver 0 line.toList := by
      rw [looseQuotes, lines]
    have text : joined "\n" (Docstring.lines bodyIndent summary deprecated) =
        bodyIndent ++ "\"\"\"" ++ (first ++ "\"\"\"") := by
      rw [Docstring.lines, written]
      exact String.append_assoc
    obtain ⟨value, read, whole⟩ := reads_single spells
    rw [List.forall_mem_cons] at one
    have plain : unindented bodyIndent value = value := by
      refine unindented_of_oneLine fun c member => one.1 c ?_
      rw [← whole, String.toList_append]
      exact List.mem_append_left _ member
    rw [loose, lines]
    exact ⟨_, value, text, read, by rw [plain, whole, Text.lines_of_oneLine one.1 starts]⟩
  | @cons second second' rest rest' more others =>
    have loose : looseQuotes (content summary deprecated) = 0 := by rw [looseQuotes, lines]
    have text : joined "\n" (Docstring.lines bodyIndent summary deprecated) =
        bodyIndent ++ "\"\"\"" ++ (joined "\n" (first ::
          (second' :: rest').map (Docstring.furtherLine bodyIndent) ++ [bodyIndent]) ++ "\"\"\"") := by
      rw [Docstring.lines, written]
      dsimp only
      rw [Text.joined_append_last, List.cons_append, Text.joined_append_head]
      simp only [String.append_assoc, List.cons_append]
    rw [loose, lines]
    refine ⟨_, _, text, reads_several spells (.cons more others), ?_⟩
    rw [unindented_joined one, List.replicate_zero, String.ofList_nil, String.append_empty,
      Text.lines_joined one]

theorem looseQuotes_empty : looseQuotes "" = 0 := rfl

theorem lines_eq_nil (empty : content summary deprecated = "") :
    Docstring.lines bodyIndent summary deprecated = [] := by
  rw [Docstring.lines, empty]
  rfl

theorem isLiteral_iff (filled : content summary deprecated ≠ "") :
    IsLiteral (Docstring.lines bodyIndent summary deprecated) (content summary deprecated) ↔
      looseQuotes (content summary deprecated) = 0 := by
  obtain ⟨body, value, text, read, same⟩ := reads_literal filled
  constructor
  · rintro ⟨body', value', text', read', _⟩
    obtain rfl : body = body' := String.append_right_inj _ |>.mp (text.symm.trans text')
    have quotes := congrArg Prod.snd (Option.some.inj (read.symm.trans read'))
    simpa using quotes
  · intro closed
    rw [closed, List.replicate_zero] at read same
    rw [String.ofList_nil, String.append_empty] at same
    exact ⟨body, value, text, read, same⟩

end

/-- A docstring is a literal with the lines of its text unless quotes are left over at the end of a
single line; as many then stand behind the literal, whose value lacks them. -/
theorem docstring_closed_iff (method : Method) (summary : String) (deprecated : Bool) :
    ∃ lines, { method with summary := .text summary, deprecated }.docstring = .ok lines ∧
      ((lines = [] ∨ IsLiteral lines (content summary deprecated)) ↔
        looseQuotes (content summary deprecated) = 0) ∧
      (content summary deprecated = "" ∧ lines = [] ∨
        ∃ body value, joined "\n" lines = bodyIndent ++ "\"\"\"" ++ body ∧
          readLong body.toList = some (value.toList,
            List.replicate (looseQuotes (content summary deprecated)) '"') ∧
          Text.lines (unindented bodyIndent value ++ String.ofList
            (List.replicate (looseQuotes (content summary deprecated)) '"')) =
              Text.lines (content summary deprecated)) := by
  refine ⟨Docstring.lines bodyIndent summary deprecated, rfl, ?_⟩
  by_cases empty : content summary deprecated = ""
  · rw [lines_eq_nil empty, empty]
    exact ⟨iff_of_true (.inl rfl) looseQuotes_empty, .inl ⟨rfl, rfl⟩⟩
  · refine ⟨?_, .inr (reads_literal empty)⟩
    have opened : Docstring.lines bodyIndent summary deprecated ≠ [] := by
      obtain ⟨body, value, text, _⟩ := reads_literal empty
      rintro none
      rw [none] at text
      exact absurd (congrArg String.toList text) (by simp [joined])
    rw [or_iff_right opened, isLiteral_iff empty]

/-- The quote at the end of the summary is the first of the three that close the literal. -/
theorem docstring_closed_early :
    ¬(Docstring.lines bodyIndent "Say \"hi\"" false = [] ∨
      IsLiteral (Docstring.lines bodyIndent "Say \"hi\"" false) (content "Say \"hi\"" false)) := by
  have lines : Docstring.lines bodyIndent "Say \"hi\"" false =
      [bodyIndent ++ "\"\"\"" ++ "Say \"hi\"\"\"\""] := by decide +kernel
  rw [lines]
  rintro (none | ⟨body, value, text, read, _⟩)
  · cases none
  · obtain rfl : "Say \"hi\"\"\"\"" = body := String.append_right_inj _ |>.mp text
    have early : (readLong "Say \"hi\"\"\"\"".toList).map Prod.snd = some ['"'] := by decide
    rw [read] at early
    exact List.cons_ne_nil '"' [] (Option.some.inj early).symm

end ApiBinding.Code
