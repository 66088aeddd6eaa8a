import ApiBinding.Method.Render
import ApiBinding.Proofs.Text.Pieces

/-!
The lines that handle a response, read as a chain of conditions on the status: which of their
statements run.
-/

namespace ApiBinding.Handler

/-- Whether a character ends a word of a condition, after which a colon stands. -/
def endsWord (c : Char) : Bool := c == ' ' || c == ':'

/-- The number that a text of decimal digits without leading zeros denotes. -/
def natural? (s : String) : Option Nat :=
  let n := Nat.ofDigitChars 10 s.toList 0
  if n.repr = s then some n else none

@[simp] theorem natural?_repr (n : Nat) : natural? n.repr = some n := by
  simp [natural?]

/-- Whether a condition holds of a status, if it can be read. -/
def holds? (condition : String) (status : Int) : Option Bool :=
  match (Text.pieces endsWord condition.toList).map String.ofList with
  | ["status_", "==", value, ""] => do
    let value : Nat ← natural? value
    return status == value
  | [low, "<=", "status_", "<", high, ""] => do
    let low : Nat ← natural? low
    let high : Nat ← natural? high
    return decide (low ≤ status) && decide (status < high)
  | _ => none

theorem whole_repr (n : Nat) : n.repr.toList.any endsWord = false := by
  rw [List.any_eq_false]
  intro c hc
  have digit : c.isDigit = true :=
    Nat.isDigit_of_mem_toDigits (by decide) (by decide) (Nat.toList_repr ▸ hc)
  rw [endsWord, Bool.not_eq_true, Bool.or_eq_false_iff, beq_eq_false_iff_ne, beq_eq_false_iff_ne]
  constructor <;> (rintro rfl; simp at digit)

theorem holds?_code (n : Nat) (status : Int) :
    holds? ((StatusTest.code n).condition ++ ":") status = some (status == n) := by
  have text : ((StatusTest.code n).condition ++ ":").toList =
      "status_".toList ++ ' ' :: ("==".toList ++ ' ' :: (n.repr.toList ++ ':' :: [])) := by
    rw [StatusTest.condition, show toString (n : Int) = n.repr from rfl]
    simp
  have words : Text.pieces endsWord ((StatusTest.code n).condition ++ ":").toList =
      ["status_".toList, "==".toList, n.repr.toList, []] := by
    rw [text, Text.pieces_word (by decide) (by decide), Text.pieces_word (by decide) (by decide),
      Text.pieces_word (whole_repr n) (by decide)]
    rfl
  simp only [holds?, words, List.map_cons, List.map_nil, String.ofList_toList, String.ofList_nil,
    natural?_repr]
  rfl

theorem holds?_hundred (first : Nat) (status : Int) :
    holds? ((StatusTest.hundred first).condition ++ ":") status =
      some (decide ((first : Int) ≤ status) && decide (status < first + 100)) := by
  have text : ((StatusTest.hundred first).condition ++ ":").toList =
      first.repr.toList ++ ' ' :: ("<=".toList ++ ' ' :: ("status_".toList
        ++ ' ' :: ("<".toList ++ ' ' :: ((first + 100).repr.toList ++ ':' :: [])))) := by
    simp [StatusTest.condition]
  have words : Text.pieces endsWord ((StatusTest.hundred first).condition ++ ":").toList =
      [first.repr.toList, "<=".toList, "status_".toList, "<".toList, (first + 100).repr.toList,
        []] := by
    rw [text, Text.pieces_word (whole_repr first) (by decide),
      Text.pieces_word (by decide) (by decide), Text.pieces_word (by decide) (by decide),
      Text.pieces_word (by decide) (by decide), Text.pieces_word (whole_repr _) (by decide)]
    rfl
  simp only [holds?, words, List.map_cons, List.map_nil, String.ofList_toList, String.ofList_nil,
    natural?_repr]
  rfl

/-- Whether a statement ends the method. -/
def leaves (statement : String) : Bool :=
  Text.startsWith "return " statement || Text.startsWith "raise " statement

/-- The statements of the block that opens the given lines. -/
def block : List String → List String
  | [] => []
  | line :: rest =>
    match Text.rest? "                " line with
    | some statement => statement :: block rest
    | none => []

/-- The statements that run on a status: those under the first condition that holds, which have to
leave the method, or those after all blocks. -/
def running (status : Int) : List String → Option (List String)
  | [] => some []
  | line :: rest =>
    match Text.rest? "            if " line with
    | some condition =>
      match holds? condition status with
      | some true => if (block rest).getLast?.any leaves then some (block rest) else none
      | some false => running status rest
      | none => none
    | none =>
      if (Text.rest? "                " line).isSome then running status rest
      else (line :: rest).mapM (Text.rest? "            ")

theorem rest?_outer (statement : String) :
    Text.rest? "            if " ("                " ++ statement) = none := by
  simp [Text.rest?, Text.after?]

theorem rest?_inner (condition : String) :
    Text.rest? "                " ("            if " ++ condition) = none := by
  simp [Text.rest?, Text.after?]

theorem block_append (statements : List String) {rest : List String} (ends : block rest = []) :
    block (statements.map ("                " ++ ·) ++ rest) = statements := by
  induction statements with
  | nil => exact ends
  | cons statement statements ih => simp [block, ih]

theorem running_block (status : Int) (statements rest : List String) :
    running status (statements.map ("                " ++ ·) ++ rest) = running status rest := by
  induction statements with
  | nil => rfl
  | cons statement statements ih => simp [running, rest?_outer, ih]

/-- A block under a condition that holds runs, under one that does not it is passed over. -/
theorem running_case (status : Int) {condition : String} {holds : Bool}
    (read : holds? condition status = some holds) {statements rest : List String}
    (leaving : statements.getLast?.any leaves = true) (ends : block rest = []) :
    running status
        (("            if " ++ condition) :: statements.map ("                " ++ ·) ++ rest) =
      if holds then some statements else running status rest := by
  rw [List.cons_append, running]
  simp only [Text.rest?_append, read]
  cases holds with
  | false => simpa using running_block status statements rest
  | true => simp [block_append statements ends, leaving]

theorem mapM_rest? (indent : String) (statements : List String) :
    (statements.map (indent ++ ·)).mapM (Text.rest? indent) = some statements := by
  induction statements with
  | nil => rfl
  | cons statement statements ih => simp [ih]

theorem leaves_statements (c : StatusCase) (mode : ResponseMode) (style : TypeHint.Style) :
    (c.statements mode style).getLast?.any leaves = true := by
  have returns (value : String) : leaves ("return " ++ value) = true := by
    simp [leaves, Text.startsWith, Text.after?]
  have raises (message response result : String) :
      leaves (raiseText message response result) = true := by
    unfold raiseText
    simp [leaves, Text.startsWith, Text.after?]
  unfold StatusCase.statements
  cases c.action with
  | failDeclared => cases c.type <;> simp [raises]
  | failEmpty => simp [raises]
  | returnNothing => simp [returns]
  | returnBytes => simp [returns]
  | openStream => simp [returns]
  | decodeValue => simp [returns]
  | decodeOptional => simp [returns]

/-- The lines that handle a response, with the given ones in the place of its cases. -/
def around (chain : List String) : List String :=
  ["        try:",
      "            status_ = response_.status_code",
      "            headers_ = response_.headers"]
    ++ chain
    ++ ["        finally:",
      "            if dispose_response_:",
      "                await response_.aclose()"]

/-- Whether statements can stand behind all blocks: their first line opens no block and belongs to
none. -/
def StandAlone (statements : List String) : Prop :=
  ∃ first rest, statements = first :: rest ∧
    Text.rest? "            if " ("            " ++ first) = none ∧
    Text.rest? "                " ("            " ++ first) = none

theorem StandAlone.running_eq {statements : List String} (h : StandAlone statements)
    (status : Int) : running status (statements.map ("            " ++ ·)) = some statements := by
  obtain ⟨first, rest, rfl, noBlock, outside⟩ := h
  rw [List.map_cons, running, noBlock, outside]
  exact mapM_rest? "            " (first :: rest)

theorem StandAlone.block_eq {statements : List String} (h : StandAlone statements) :
    block (statements.map ("            " ++ ·)) = [] := by
  obtain ⟨first, rest, rfl, _, outside⟩ := h
  rw [List.map_cons, block, outside]

theorem standAlone_of_failDeclared {c : StatusCase} (fails : c.action = .failDeclared)
    (mode : ResponseMode) (style : TypeHint.Style) : StandAlone (c.statements mode style) := by
  unfold StatusCase.statements
  rw [fails]
  cases c.type with
  | none => exact ⟨"await response_.aread()", _, rfl, by decide, by decide⟩
  | some type => exact ⟨"data_ = await response_.aread()", _, rfl, by decide, by decide⟩

/-- What runs where no case handles the status. -/
def unexpected : List String :=
  ["await response_.aread()",
    raiseText ("f" ++ Text.quoted undeclaredStatusMessage) "response_.text" "None"]

theorem standAlone_unexpected : StandAlone unexpected :=
  ⟨"await response_.aread()", _, rfl, by decide, by decide⟩

end ApiBinding.Handler
