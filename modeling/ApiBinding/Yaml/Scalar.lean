import ApiBinding.Number.Digits
import ApiBinding.Text.Half
import ApiBinding.Yaml.Cursor
import ApiBinding.Yaml.Problem

/-!
The texts of scalars: between quotes, in indented blocks and plain. Line breaks inside are folded
into spaces where the style asks for it.
-/

namespace ApiBinding.Yaml

abbrev Scanned := Except Problem (List Char × Cursor)

def isGap (c : Char) : Bool := c == ' ' || c == '\t'

/-- What a folded line break and the further breaks after it stand for. -/
def foldBreaks (first further : List Char) : List Char :=
  (if first != ['\n'] then first else if further.isEmpty then [' '] else []) ++ further

/-! ## Quoted -/

/-- The line breaks at the front of a quoted text, with the gaps around them left out. A document
boundary may not stand there. -/
def quotedBreaks : Nat → Cursor → Scanned
  | 0, _ => .error .malformed
  | fuel + 1, cursor =>
    if cursor.atBoundary then .error .malformed
    else
      let cursor := cursor.skip isGap
      if isBreak cursor.peek then do
        let (first, cursor) := cursor.lineBreak
        let (further, cursor) ← quotedBreaks fuel cursor
        return (first ++ further, cursor)
      else .ok ([], cursor)

def quotedGap (cursor : Cursor) : Scanned :=
  let (gap, cursor) := cursor.span isGap
  if cursor.rest.isEmpty then .error .malformed
  else if isBreak cursor.peek then do
    let (first, cursor) := cursor.lineBreak
    let (further, cursor) ← quotedBreaks cursor.limit cursor
    return (foldBreaks first further, cursor)
  else .ok (gap, cursor)

def escapedChar? (c : Char) : Option Char :=
  [('0', '\x00'), ('a', '\x07'), ('b', '\x08'), ('t', '\t'), ('\t', '\t'), ('n', '\n'),
    ('v', '\x0b'), ('f', '\x0c'), ('r', '\r'), ('e', '\x1b'), (' ', ' '), ('"', '"'),
    ('\\', '\\'), ('/', '/'), ('N', '\x85'), ('_', '\xa0'), ('L', '\u2028'),
    ('P', '\u2029')].lookup c

def codeLength? (c : Char) : Option Nat := [('x', 2), ('u', 4), ('U', 8)].lookup c

/-- What an escaped code stands for, which may be out of range. -/
def coded (code : Nat) : Except Problem (List Char) :=
  if 0x80000000 ≤ code then .error (.misuse .overflow)
  else if 0x110000 ≤ code then .error (.misuse .numeral)
  else .ok (Text.ofCode code)

def escape (cursor : Cursor) : Scanned :=
  match escapedChar? cursor.peek, codeLength? cursor.peek with
  | some c, _ => if cursor.rest.isEmpty then .error .malformed else .ok ([c], cursor.next)
  | none, some n =>
    let digits := (cursor.rest.drop 1).take n
    if digits.length = n ∧ digits.all Digits.isHex then
      (coded (Digits.inBase 16 digits)).map fun unit => (unit, cursor.advance (n + 1))
    else .error .malformed
  | none, none =>
    if isBreak cursor.peek then
      let (_, cursor) := cursor.lineBreak
      quotedBreaks cursor.limit cursor
    else .error .malformed

def isQuotedSpecial (c : Char) : Bool :=
  c == '\'' || c == '"' || c == '\\' || isGapOrEnd c

def quotedText (double : Bool) : Nat → Cursor → Scanned
  | 0, _ => .error .malformed
  | fuel + 1, cursor => do
    let (start, cursor) := cursor.span fun c => !isQuotedSpecial c
    let start := start.flatMap Text.kept
    let c := cursor.peek
    if c = '\'' ∧ !double then
      if cursor.peekAt 1 = '\'' then
        let (rest, cursor) ← quotedText double fuel (cursor.advance 2)
        return (start ++ '\'' :: rest, cursor)
      else return (start, cursor.next)
    else if c = '"' ∧ double then return (start, cursor.next)
    else if c = '\'' ∨ c = '"' ∨ (c = '\\' ∧ !double) then
      let (rest, cursor) ← quotedText double fuel cursor.next
      return (start ++ c :: rest, cursor)
    else
      let (piece, cursor) ← if c = '\\' then escape cursor.next else quotedGap cursor
      let (rest, cursor) ← quotedText double fuel cursor
      return (start ++ piece ++ rest, cursor)

/-- The text between quotes, of which the cursor is at the first. -/
def quoted (cursor : Cursor) : Scanned :=
  quotedText (cursor.peek == '"') cursor.limit cursor.next

/-! ## Blocks -/

inductive Chomping where
  | strip
  | clip
  | keep
deriving DecidableEq

def chompingOf? : Char → Option Chomping
  | '-' => some .strip
  | '+' => some .keep
  | _ => none

def blockHead (cursor : Cursor) : Except Problem (Chomping × Option Nat × Cursor) := do
  let (sign, cursor) := match chompingOf? cursor.peek with
    | some sign => (some sign, cursor.next)
    | none => (none, cursor)
  let (indent, cursor) :=
    if cursor.peek.isDigit then (some (cursor.peek.toNat - 48), cursor.next) else (none, cursor)
  if indent = some 0 then throw .malformed
  let (sign, cursor) := match sign, indent, chompingOf? cursor.peek with
    | none, some _, some sign => (some sign, cursor.next)
    | sign, _, _ => (sign, cursor)
  if isSpaceOrEnd cursor.peek then return (sign.getD .clip, indent, cursor)
  else throw .malformed

/-- The place after a comment, or what is left blank, up to the end of the line. -/
def restOfLine (cursor : Cursor) : Except Problem Cursor :=
  let cursor := cursor.skip (· == ' ')
  let cursor := if cursor.peek = '#' then cursor.skip fun c => !isBreakOrEnd c else cursor
  if isBreakOrEnd cursor.peek then .ok cursor.lineBreak.2 else .error .malformed

/-- The line breaks in front of the first line of a block and the greatest column after them. -/
def blockStart : Nat → Nat → Cursor → List Char × Nat × Cursor
  | 0, deepest, cursor => ([], deepest, cursor)
  | fuel + 1, deepest, cursor =>
    if cursor.peek = ' ' then blockStart fuel (max deepest cursor.next.column) cursor.next
    else if isBreak cursor.peek then
      let (first, cursor) := cursor.lineBreak
      let (further, deepest, cursor) := blockStart fuel deepest cursor
      (first ++ further, deepest, cursor)
    else ([], deepest, cursor)

/-- The place after spaces at the front, at most up to the column. -/
def indentTo (column : Nat) (cursor : Cursor) : Cursor :=
  cursor.advance
    (min (column - cursor.column) (cursor.rest.takeWhile (· == ' ')).length)

def blockBreaks (indent : Nat) : Nat → Cursor → List Char × Cursor
  | 0, cursor => ([], cursor)
  | fuel + 1, cursor =>
    let cursor := indentTo indent cursor
    if isBreak cursor.peek then
      let (first, cursor) := cursor.lineBreak
      let (further, cursor) := blockBreaks indent fuel cursor
      (first ++ further, cursor)
    else ([], cursor)

/-- The lines of a block at its indent, after the given breaks. At the end come the line break of
the last line and the breaks after it. -/
def blockLines (folded : Bool) (indent : Nat) (breaks : List Char) :
    Nat → Cursor → List Char × List Char × List Char × Cursor
  | 0, cursor => ([], [], breaks, cursor)
  | fuel + 1, cursor =>
    if cursor.column = indent ∧ !cursor.rest.isEmpty then
      let startsPlain := !isGap cursor.peek
      let (line, cursor) := cursor.span fun c => !isBreakOrEnd c
      let (ending, cursor) := cursor.lineBreak
      let (further, cursor) := blockBreaks indent cursor.limit cursor
      if cursor.column = indent ∧ !cursor.rest.isEmpty then
        let joint :=
          if folded && ending == ['\n'] && startsPlain && !isGap cursor.peek then
            if further.isEmpty then [' '] else []
          else ending
        let (lines, result) := blockLines folded indent further fuel cursor
        (breaks ++ line ++ joint ++ lines, result)
      else (breaks ++ line, ending, further, cursor)
    else ([], [], breaks, cursor)

/-- The text of a block, of which the cursor is at the mark. The block stands deeper than the given
indent. -/
def block (outer : Int) (cursor : Cursor) : Scanned := do
  let folded := cursor.peek == '>'
  let (chomping, stated, cursor) ← blockHead cursor.next
  let cursor ← restOfLine cursor
  let least := max 1 (outer + 1).toNat
  let fuel := cursor.limit
  let (breaks, indent, cursor) := match stated with
    | some n =>
      let indent := least + n - 1
      let (breaks, cursor) := blockBreaks indent fuel cursor
      (breaks, indent, cursor)
    | none =>
      let (breaks, deepest, cursor) := blockStart fuel 0 cursor
      (breaks, max least deepest, cursor)
  let (lines, ending, further, cursor) := blockLines folded indent breaks fuel cursor
  return (lines.flatMap Text.kept ++ (if chomping = .strip then [] else ending)
    ++ (if chomping = .keep then further else []), cursor)

/-! ## Plain -/

def plainLength (inFlow : Bool) : List Char → Nat
  | [] => 0
  | c :: rest =>
    let after := rest.headD '\x00'
    if isGapOrEnd c then 0
    else if c == ':' && (isGapOrEnd after || (inFlow && ",[]\x7b\x7d".toList.contains after)) then 0
    else if inFlow && ",?[]\x7b\x7d".toList.contains c then 0
    else plainLength inFlow rest + 1

/-- The line breaks and spaces at the front, none if a document boundary follows one of them. -/
def plainBreaks : Nat → Cursor → Option (List Char) × Cursor
  | 0, cursor => (none, cursor)
  | fuel + 1, cursor =>
    if cursor.peek = ' ' then plainBreaks fuel cursor.next
    else if isBreak cursor.peek then
      let (first, cursor) := cursor.lineBreak
      if cursor.atBoundary then (none, cursor)
      else
        let (further, cursor) := plainBreaks fuel cursor
        (further.map (first ++ ·), cursor)
    else (some [], cursor)

/-- The gap after a part of a plain text, empty if the text ends there, and whether it holds a line
break. -/
def plainGap (cursor : Cursor) : List Char × Bool × Cursor :=
  let (spaces, cursor) := cursor.span (· == ' ')
  if isBreak cursor.peek then
    let (first, cursor) := cursor.lineBreak
    if cursor.atBoundary then ([], true, cursor)
    else
      match plainBreaks cursor.limit cursor with
      | (some further, cursor) => (foldBreaks first further, true, cursor)
      | (none, cursor) => ([], true, cursor)
  else (spaces, false, cursor)

/-- The plain text after the given gap, with what is known of the last gap: whether it holds a line
break. -/
def plainText (inFlow : Bool) (indent : Int) (gap : List Char) (broken : Bool) :
    Nat → Cursor → List Char × Bool × Cursor
  | 0, cursor => ([], broken, cursor)
  | fuel + 1, cursor =>
    let length := if cursor.peek = '#' then 0 else plainLength inFlow cursor.rest
    if length = 0 then ([], broken, cursor)
    else
      let part := (cursor.rest.take length).flatMap Text.kept
      let (next, nextBroken, cursor) := plainGap (cursor.advance length)
      if next.isEmpty || cursor.peek == '#' || (!inFlow && (cursor.column : Int) < indent) then
        (gap ++ part, nextBroken, cursor)
      else
        let (rest, lastBroken, cursor) := plainText inFlow indent next nextBroken fuel cursor
        (gap ++ part ++ rest, lastBroken, cursor)

end ApiBinding.Yaml
