import ApiBinding.Identifier.Forbidden
import ApiBinding.Text.Half
import ApiBinding.Text.Pieces

/-!
Identifiers made from raw names. Parameters and methods are written in small letters with
underscores between words, types with a capital at the start of each word. A name that is forbidden
in its role gets a suffix.
-/

namespace ApiBinding.Identifier

def isWordChar (c : Char) : Bool := c.isAlphanum

def validChar (c : Char) : Char := if isWordChar c || c == '_' then c else '_'

/-- Whether a capital after `before` and in front of `after` starts a new word. -/
def startsWord (before after : Option Char) : Bool :=
  match before with
  | none => false
  | some b =>
    b != '_' && (b.isLower || b.isDigit || (b.isUpper && (after.map Char.isLower).getD false))

/-- Small letters with an underscore in front of every capital that starts a new word; `before` is
the character in front of the rest. -/
def snakeFrom (before : Option Char) : List Char → List Char
  | [] => []
  | c :: rest =>
    if c.isUpper then
      (if startsWord before rest.head? then ['_', c.toLower] else [c.toLower])
        ++ snakeFrom (some c) rest
    else c :: snakeFrom (some c) rest

def capitalized : List Char → List Char
  | [] => []
  | c :: rest => c.toUpper :: rest

/-- The words of a name, each with a capital at its start and nothing between them. -/
def pascal (cs : List Char) : List Char :=
  (Text.pieces (fun c => !isWordChar c) cs).flatMap capitalized

def styled : Role → List Char → List Char
  | .type, cs => pascal cs
  | _, cs => snakeFrom none (cs.map validChar)

/-- A styled name that is not empty and does not start with a digit. -/
def wellStarted (role : Role) (name : List Char) : String :=
  match name with
  | [] => fallbackName role
  | c :: rest =>
    if c.isDigit then digitLead role ++ String.ofList (c :: rest) else String.ofList (c :: rest)

/-- The name itself, or the name with the suffix of its role if it is forbidden. -/
def freed (role : Role) (name : String) : String :=
  if isForbidden role name then name ++ freeingSuffix role else name

/-- A name with one character for each code; which one does not matter for what is no letter. -/
def singles (cs : List Char) : List Char := (Text.units cs).filterMap List.getLast?

def ofRaw (role : Role) (raw : String) : String :=
  freed role (wellStarted role (styled role (singles raw.toList)))

end ApiBinding.Identifier
