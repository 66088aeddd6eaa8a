/-!
Taking texts apart and putting them together: pieces between separators, a separator between
pieces, and the replacement of one text by another.
-/

namespace ApiBinding.Text

/-- The pieces of a text between the characters that fulfil the condition; `start` holds the
characters of the first piece read so far, in reverse. -/
def piecesFrom (isSeparator : Char → Bool) (start : List Char) : List Char → List (List Char)
  | [] => [start.reverse]
  | c :: rest =>
    if isSeparator c then start.reverse :: piecesFrom isSeparator [] rest
    else piecesFrom isSeparator (c :: start) rest

/-- The pieces of a text between the characters that fulfil the condition, empty ones included. -/
def pieces (isSeparator : Char → Bool) (cs : List Char) : List (List Char) :=
  piecesFrom isSeparator [] cs

def piecesAt (separator : Char) (s : String) : List String :=
  (pieces (· == separator) s.toList).map String.ofList

def joined (separator : String) : List String → String
  | [] => ""
  | [s] => s
  | s :: rest => s ++ separator ++ joined separator rest

/-- What follows the given beginning of a text that starts with it. -/
def after? : List Char → List Char → Option (List Char)
  | [], cs => some cs
  | _ :: _, [] => none
  | p :: ps, c :: cs => if p = c then after? ps cs else none

def rest? (start s : String) : Option String :=
  (after? start.toList s.toList).map String.ofList

def startsWith (start s : String) : Bool := (after? start.toList s.toList).isSome

def occurs (pattern : List Char) : List Char → Bool
  | [] => pattern.isEmpty
  | c :: rest => (after? pattern (c :: rest)).isSome || occurs pattern rest

/-- Replaces the pattern from left to right, after passing over the given number of characters. -/
def replaceFrom (pattern new : List Char) : Nat → List Char → List Char
  | _, [] => []
  | skip + 1, _ :: rest => replaceFrom pattern new skip rest
  | 0, c :: rest =>
    if (after? pattern (c :: rest)).isSome then
      new ++ replaceFrom pattern new (pattern.length - 1) rest
    else c :: replaceFrom pattern new 0 rest

/-- The text with every occurrence of a pattern that is not empty replaced. -/
def replaced (pattern new s : String) : String :=
  String.ofList (replaceFrom pattern.toList new.toList 0 s.toList)

def splitLast? (separator : Char) (cs : List Char) : Option (List Char × List Char) :=
  let ending := cs.reverse.takeWhile (· != separator)
  if ending.length = cs.length then none
  else some (cs.take (cs.length - ending.length - 1), ending.reverse)

def splitFirst? (separator : Char) (cs : List Char) : Option (List Char × List Char) :=
  let start := cs.takeWhile (· != separator)
  if start.length = cs.length then none else some (start, cs.drop (start.length + 1))

end ApiBinding.Text
