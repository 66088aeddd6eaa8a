/-!
A place in a text, with its line and its column.
-/

namespace ApiBinding.Yaml

/-- What is left of a text at a place, and the count of characters, lines and columns before it. No
reading takes more steps than the limit, which exceeds the length of the whole text. -/
structure Cursor where
  rest : List Char
  limit : Nat
  index : Nat := 0
  line : Nat := 0
  column : Nat := 0

def isBreak (c : Char) : Bool :=
  c == '\n' || c == '\r' || c == '\x85' || c == '\u2028' || c == '\u2029'

def isBreakOrEnd (c : Char) : Bool := c == '\x00' || isBreak c

def isSpaceOrEnd (c : Char) : Bool := c == ' ' || isBreakOrEnd c

def isGapOrEnd (c : Char) : Bool := c == '\t' || isSpaceOrEnd c

namespace Cursor

def ofChars (cs : List Char) : Cursor := { rest := cs, limit := cs.length + 1 }

/-- The character that stands so many places ahead; past the end it is the null character. -/
def peekAt (cursor : Cursor) (n : Nat) : Char := (cursor.rest.drop n).headD '\x00'

def peek (cursor : Cursor) : Char := cursor.rest.headD '\x00'

def next (cursor : Cursor) : Cursor :=
  match cursor.rest with
  | [] => cursor
  | c :: rest =>
    let index := cursor.index + 1
    if isBreak c && !(c == '\r' && rest.headD '\x00' == '\n') then
      { cursor with rest, index, line := cursor.line + 1, column := 0 }
    else if c == '\ufeff' then { cursor with rest, index }
    else { cursor with rest, index, column := cursor.column + 1 }

def advance : Nat → Cursor → Cursor
  | 0, cursor => cursor
  | n + 1, cursor => advance n cursor.next

def span (p : Char → Bool) (cursor : Cursor) : List Char × Cursor :=
  let text := cursor.rest.takeWhile p
  (text, cursor.advance text.length)

def skip (p : Char → Bool) (cursor : Cursor) : Cursor := (cursor.span p).2

/-- The line break at the front in its plain form, if there is one, and the place after it. -/
def lineBreak (cursor : Cursor) : List Char × Cursor :=
  match cursor.rest with
  | '\r' :: '\n' :: _ => (['\n'], cursor.advance 2)
  | c :: _ =>
    if c == '\u2028' || c == '\u2029' then ([c], cursor.next)
    else if isBreak c then (['\n'], cursor.next)
    else ([], cursor)
  | [] => ([], cursor)

/-- Whether three equal marks of a document boundary stand at the front. -/
def atBoundary (cursor : Cursor) : Bool :=
  let front := cursor.rest.take 3
  (front == ['-', '-', '-'] || front == ['.', '.', '.']) && isGapOrEnd (cursor.peekAt 3)

end Cursor

end ApiBinding.Yaml
