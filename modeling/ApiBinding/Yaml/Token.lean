import ApiBinding.Number.Numeral
import ApiBinding.Yaml.Scalar

/-!
The tokens of a text: its marks, names and scalars, with the begin and end of every block that is
set off by indents. Where a text cannot be read its tokens end with a fault.
-/

namespace ApiBinding.Yaml

inductive Token where
  | versionDirective (major : Nat)
  | tagDirective (handle lead : String)
  | otherDirective
  | documentStart
  | documentEnd
  | blockSequenceStart
  | blockMappingStart
  | blockEnd
  | flowSequenceStart
  | flowSequenceEnd
  | flowMappingStart
  | flowMappingEnd
  | blockEntry
  | flowEntry
  | key
  | value
  | reference (name : String)
  | anchor (name : String)
  | tag (handle : Option String) (suffix : String)
  | scalar (text : String) (plain : Bool)
  | streamEnd
  | fault (problem : Problem)
deriving DecidableEq

/-- A place that turns out to be a key if a mark of a value follows on its line. -/
structure PossibleKey where
  flow : Nat
  tokenNumber : Nat
  required : Bool
  index : Nat
  line : Nat
  column : Nat

structure Lexer where
  cursor : Cursor
  tokens : Array Token := #[]
  flow : Nat := 0
  indent : Int := -1
  indents : List Int := []
  keyAllowed : Bool := true
  keys : List PossibleKey := []
  done : Bool := false

namespace Lexer

def push (lexer : Lexer) (token : Token) (cursor : Cursor) : Lexer :=
  { lexer with tokens := lexer.tokens.push token, cursor }

def allowKeys (allowed : Bool) (lexer : Lexer) : Lexer := { lexer with keyAllowed := allowed }

/-- Goes over spaces, comments and line breaks to the next token. -/
def skipToToken : Nat → Lexer → Lexer
  | 0, lexer => lexer
  | fuel + 1, lexer =>
    let cursor := lexer.cursor
    let cursor := if cursor.index = 0 ∧ cursor.peek = '\ufeff' then cursor.next else cursor
    let cursor := cursor.skip (· == ' ')
    let cursor := if cursor.peek = '#' then cursor.skip fun c => !isBreakOrEnd c else cursor
    if isBreak cursor.peek then
      skipToToken fuel { lexer with
        cursor := cursor.lineBreak.2
        keyAllowed := lexer.keyAllowed || lexer.flow == 0 }
    else { lexer with cursor }

/-- Whether a possible key is too far back to be one at a place. -/
def isStale (cursor : Cursor) (key : PossibleKey) : Bool :=
  key.line != cursor.line || key.index + 1024 < cursor.index

/-- Gives up possible keys that are too far back; one that had to be a key is an error. -/
def dropStaleKeys (lexer : Lexer) : Except Problem Lexer :=
  let (stale, keys) := lexer.keys.partition (isStale lexer.cursor)
  if stale.any PossibleKey.required then .error .malformed else .ok { lexer with keys }

/-- Gives up the possible key of the present flow; one that had to be a key is an error. -/
def removeKey (lexer : Lexer) : Except Problem Lexer :=
  if lexer.keys.any fun key => key.flow == lexer.flow && key.required then .error .malformed
  else .ok { lexer with keys := lexer.keys.filter fun key => key.flow != lexer.flow }

/-- Notes that the next token may begin a key. -/
def saveKey (lexer : Lexer) : Except Problem Lexer :=
  if lexer.keyAllowed then do
    let required := lexer.flow == 0 && lexer.indent == lexer.cursor.column
    let lexer ← lexer.removeKey
    let key : PossibleKey := {
      flow := lexer.flow
      tokenNumber := lexer.tokens.size
      required
      index := lexer.cursor.index
      line := lexer.cursor.line
      column := lexer.cursor.column
    }
    return { lexer with keys := key :: lexer.keys }
  else .ok lexer

def unwindFrom (column : Int) (tokens : Array Token) (indent : Int) :
    List Int → Array Token × Int × List Int
  | [] => (tokens, indent, [])
  | outer :: rest =>
    if column < indent then unwindFrom column (tokens.push .blockEnd) outer rest
    else (tokens, indent, outer :: rest)

/-- Ends the blocks that are indented deeper than a column, outside of flows. -/
def unwind (column : Int) (lexer : Lexer) : Lexer :=
  if lexer.flow = 0 then
    let (tokens, indent, indents) := unwindFrom column lexer.tokens lexer.indent lexer.indents
    { lexer with tokens, indent, indents }
  else lexer

/-- Begins a block at a column if it is indented deeper than the present one; its token goes to the
given place. -/
def indentAt (column : Nat) (token : Token) (place : Nat) (lexer : Lexer) : Lexer :=
  if lexer.indent < column then
    { lexer with
      indents := lexer.indent :: lexer.indents
      indent := column
      tokens := lexer.tokens.insertIdxIfInBounds place token }
  else lexer

def indentHere (token : Token) (lexer : Lexer) : Lexer :=
  lexer.indentAt lexer.cursor.column token lexer.tokens.size

def readEnd (lexer : Lexer) : Except Problem Lexer := do
  let lexer ← (lexer.unwind (-1)).removeKey
  return { lexer with tokens := lexer.tokens.push .streamEnd, done := true }

def isNameChar (c : Char) : Bool := c.isAlphanum || c == '-' || c == '_'

def isTagChar (c : Char) : Bool :=
  c.isAlphanum || "-;/?:@&=+$,_.!~*'()[]%".toList.contains c

def number (cursor : Cursor) : Except Problem (Nat × Cursor) :=
  let (digits, cursor) := cursor.span Char.isDigit
  if digits.isEmpty then .error .malformed
  else if Numeral.digitLimit < digits.length then .error (.misuse .numeral)
  else .ok (Digits.decimal digits, cursor)

def versionDirective (cursor : Cursor) : Except Problem (Token × Cursor) := do
  let (major, cursor) ← number (cursor.skip (· == ' '))
  if cursor.peek != '.' then throw .malformed
  let (_, cursor) ← number cursor.next
  if isSpaceOrEnd cursor.peek then return (.versionDirective major, cursor)
  else throw .malformed

def tagHandle (cursor : Cursor) : Except Problem (List Char × Cursor) :=
  if cursor.peek = '!' then
    let (name, after) := cursor.next.span isNameChar
    if after.peek = '!' then .ok ('!' :: name ++ ['!'], after.next)
    else if after.peek = ' ' ∧ name.isEmpty then .ok (['!'], after)
    else .error .malformed
  else .error .malformed

def tagBytes? : List Char → Option (List UInt8)
  | [] => some []
  | '%' :: high :: low :: rest =>
    if [high, low].all Digits.isHex then
      (tagBytes? rest).map ((Digits.inBase 16 [high, low]).toUInt8 :: ·)
    else none
  | '%' :: _ => none
  | c :: rest => (tagBytes? rest).map (c.toNat.toUInt8 :: ·)

/-- The text of a tag, in which the bytes of other characters are written as two digits after a
percent sign. -/
def tagText (cursor : Cursor) : Except Problem (List Char × Cursor) := do
  let (written, cursor) := cursor.span isTagChar
  if written.isEmpty then throw .malformed
  let bytes ← orMalformed (tagBytes? written)
  let text ← orMalformed (String.fromUTF8? ⟨bytes.toArray⟩)
  return (text.toList, cursor)

/-- The handle and the beginning of tags that a directive ties together. -/
def tagDirective (cursor : Cursor) : Except Problem (Token × Cursor) := do
  let (handle, cursor) ← tagHandle (cursor.skip (· == ' '))
  if cursor.peek != ' ' then throw .malformed
  let (lead, cursor) ← tagText (cursor.skip (· == ' '))
  if isSpaceOrEnd cursor.peek then
    return (.tagDirective (String.ofList handle) (String.ofList lead), cursor)
  else throw .malformed

def readDirective (lexer : Lexer) : Except Problem Lexer := do
  let lexer ← (lexer.unwind (-1)).removeKey
  let (name, cursor) := lexer.cursor.next.span isNameChar
  if name.isEmpty ∨ !isSpaceOrEnd cursor.peek then throw .malformed
  let (token, cursor) ←
    if name = "YAML".toList then versionDirective cursor
    else if name = "TAG".toList then tagDirective cursor
    else pure (.otherDirective, cursor.skip fun c => !isBreakOrEnd c)
  let cursor ← restOfLine cursor
  return (lexer.push token cursor).allowKeys false

def readBoundary (token : Token) (lexer : Lexer) : Except Problem Lexer := do
  let lexer ← (lexer.unwind (-1)).removeKey
  return (lexer.push token (lexer.cursor.advance 3)).allowKeys false

def readFlowStart (token : Token) (lexer : Lexer) : Except Problem Lexer := do
  let lexer ← lexer.saveKey
  let lexer := lexer.push token lexer.cursor.next
  return { lexer with flow := lexer.flow + 1, keyAllowed := true }

def readFlowEnd (token : Token) (lexer : Lexer) : Except Problem Lexer := do
  let lexer ← lexer.removeKey
  if lexer.flow = 0 then throw .malformed
  let lexer := lexer.push token lexer.cursor.next
  return { lexer with flow := lexer.flow - 1, keyAllowed := false }

def readFlowEntry (lexer : Lexer) : Except Problem Lexer := do
  let lexer ← lexer.removeKey
  return (lexer.push .flowEntry lexer.cursor.next).allowKeys true

def readBlockEntry (lexer : Lexer) : Except Problem Lexer := do
  if lexer.flow = 0 ∧ !lexer.keyAllowed then throw .malformed
  let lexer := if lexer.flow = 0 then lexer.indentHere .blockSequenceStart else lexer
  let lexer ← lexer.removeKey
  return (lexer.push .blockEntry lexer.cursor.next).allowKeys true

def readKey (lexer : Lexer) : Except Problem Lexer := do
  if lexer.flow = 0 ∧ !lexer.keyAllowed then throw .malformed
  let lexer := if lexer.flow = 0 then lexer.indentHere .blockMappingStart else lexer
  let lexer ← lexer.removeKey
  return (lexer.push .key lexer.cursor.next).allowKeys (lexer.flow == 0)

/-- Reads the mark of a value, which turns a possible key into a key. -/
def readValue (lexer : Lexer) : Except Problem Lexer :=
  match lexer.keys.find? fun key => key.flow == lexer.flow with
  | some key =>
    let lexer := { lexer with
      keys := lexer.keys.filter fun key => key.flow != lexer.flow
      tokens := lexer.tokens.insertIdxIfInBounds key.tokenNumber .key }
    let lexer := if lexer.flow = 0 then
      lexer.indentAt key.column .blockMappingStart key.tokenNumber else lexer
    .ok ((lexer.push .value lexer.cursor.next).allowKeys false)
  | none => do
    if lexer.flow = 0 ∧ !lexer.keyAllowed then throw .malformed
    let lexer := if lexer.flow = 0 then lexer.indentHere .blockMappingStart else lexer
    let lexer ← lexer.removeKey
    return (lexer.push .value lexer.cursor.next).allowKeys (lexer.flow == 0)

/-- Reads a token that may begin a key, as the given reader finds it at the cursor. -/
def readInline (scan : Cursor → Except Problem (Token × Cursor)) (lexer : Lexer) :
    Except Problem Lexer := do
  let lexer ← lexer.saveKey
  let (token, cursor) ← scan lexer.cursor
  return (lexer.push token cursor).allowKeys false

def anchorName (make : String → Token) (cursor : Cursor) : Except Problem (Token × Cursor) :=
  let (name, cursor) := cursor.next.span isNameChar
  let mayFollow := isGapOrEnd cursor.peek || "?:,]\x7d%@\x60".toList.contains cursor.peek
  if name.isEmpty ∨ !mayFollow then .error .malformed
  else .ok (make (String.ofList name), cursor)

def tagToken (cursor : Cursor) : Except Problem (Token × Cursor) := do
  let (handle, suffix, cursor) ←
    if cursor.peekAt 1 = '<' then do
      let (text, cursor) ← tagText (cursor.advance 2)
      if cursor.peek != '>' then throw .malformed
      pure (none, text, cursor.next)
    else if isGapOrEnd (cursor.peekAt 1) then pure (none, ['!'], cursor.next)
    else
      let word := (cursor.rest.drop 1).takeWhile fun c => !isSpaceOrEnd c
      let (handle, cursor) ← if word.contains '!' then tagHandle cursor
        else pure (['!'], cursor.next)
      let (text, cursor) ← tagText cursor
      pure (some (String.ofList handle), text, cursor)
  if isSpaceOrEnd cursor.peek then return (.tag handle (String.ofList suffix), cursor)
  else throw .malformed

def quotedToken (cursor : Cursor) : Except Problem (Token × Cursor) := do
  let (text, cursor) ← quoted cursor
  return (.scalar (String.ofList text) false, cursor)

def readBlock (lexer : Lexer) : Except Problem Lexer := do
  let lexer ← lexer.removeKey
  let (text, cursor) ← block lexer.indent lexer.cursor
  return (lexer.push (.scalar (String.ofList text) false) cursor).allowKeys true

def readPlain (lexer : Lexer) : Except Problem Lexer := do
  let lexer ← lexer.saveKey
  let cursor := lexer.cursor
  let (text, broken, cursor) := plainText (lexer.flow != 0) (lexer.indent + 1) [] false
    cursor.limit cursor
  return (lexer.push (.scalar (String.ofList text) true) cursor).allowKeys broken

def startsPlain (lexer : Lexer) : Bool :=
  let c := lexer.cursor.peek
  let marks := "-?:,[]\x7b\x7d#&*!|>'\"%@\x60".toList
  (!isGapOrEnd c && !marks.contains c)
    || (!isGapOrEnd (lexer.cursor.peekAt 1)
      && (c == '-' || (lexer.flow == 0 && (c == '?' || c == ':'))))

def readToken (lexer : Lexer) : Except Problem Lexer :=
  let cursor := lexer.cursor
  let c := cursor.peek
  let atStart := cursor.column = 0
  let spaced := isGapOrEnd (cursor.peekAt 1)
  if cursor.rest.isEmpty then lexer.readEnd
  else if c = '%' ∧ atStart then lexer.readDirective
  else if c = '-' ∧ atStart ∧ cursor.atBoundary then lexer.readBoundary .documentStart
  else if c = '.' ∧ atStart ∧ cursor.atBoundary then lexer.readBoundary .documentEnd
  else if c = '[' then lexer.readFlowStart .flowSequenceStart
  else if c = '\x7b' then lexer.readFlowStart .flowMappingStart
  else if c = ']' then lexer.readFlowEnd .flowSequenceEnd
  else if c = '\x7d' then lexer.readFlowEnd .flowMappingEnd
  else if c = ',' then lexer.readFlowEntry
  else if c = '-' ∧ spaced then lexer.readBlockEntry
  else if c = '?' ∧ (lexer.flow != 0 ∨ spaced) then lexer.readKey
  else if c = ':' ∧ (lexer.flow != 0 ∨ spaced) then lexer.readValue
  else if c = '*' then lexer.readInline (anchorName .reference)
  else if c = '&' then lexer.readInline (anchorName .anchor)
  else if c = '!' then lexer.readInline tagToken
  else if (c = '|' ∨ c = '>') ∧ lexer.flow = 0 then lexer.readBlock
  else if c = '\'' ∨ c = '"' then lexer.readInline quotedToken
  else if lexer.startsPlain then lexer.readPlain
  else .error .malformed

/-- The tokens up to a fault. No token is known before it is clear whether it begins a key, so that
the fault takes the place of the first one of which it is not. -/
def cutAt (problem : Problem) (lexer : Lexer) : List Token :=
  let isOpen (key : PossibleKey) : Bool := !isStale lexer.cursor key
  let numbers := (lexer.keys.filter isOpen).map PossibleKey.tokenNumber
  lexer.tokens.toList.take (numbers.foldl min lexer.tokens.size) ++ [.fault problem]

/-- Goes to the next token, out of all blocks that end before it, and reads it. -/
def step (lexer : Lexer) : Except Problem Lexer := do
  let lexer ← (skipToToken lexer.cursor.limit lexer).dropStaleKeys
  (lexer.unwind lexer.cursor.column).readToken

def run : Nat → Lexer → List Token
  | 0, lexer => lexer.tokens.toList
  | fuel + 1, lexer =>
    if lexer.done then lexer.tokens.toList
    else
      match lexer.step with
      | .ok lexer => run fuel lexer
      | .error problem => lexer.cutAt problem

end Lexer

def isAllowed (c : Char) : Bool :=
  let n := c.toNat
  n == 9 || n == 10 || n == 13 || (32 ≤ n && n ≤ 126) || n == 0x85
    || (0xa0 ≤ n && n ≤ 0xd7ff) || (0xe000 ≤ n && n ≤ 0xfffd) || 0x10000 ≤ n

/-- The tokens of a text, which is read only if all of its characters are allowed. -/
def Token.scan (s : String) : List Token :=
  let cs := s.toList
  if cs.all isAllowed then Lexer.run (cs.length + 2) { cursor := .ofChars cs }
  else [.fault .malformed]

end ApiBinding.Yaml
