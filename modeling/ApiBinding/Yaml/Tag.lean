import ApiBinding.Yaml.Moment
import ApiBinding.Yaml.Number

/-!
The kinds of nodes: by a written tag, or for plain texts by the look of the text.
-/

namespace ApiBinding.Yaml

/-- The kind of a node. A `merge` key brings in the entries of other mappings, a `standard` key
gives the value that a mapping stands for. -/
inductive Tag where
  | null
  | bool
  | int
  | float
  | moment
  | text
  | bytes
  | merge
  | standard
  | list
  | map
  | set
  | pairs
  | other
deriving DecidableEq

namespace Tag

def known : List (String × Tag) :=
  [("null", .null), ("bool", .bool), ("int", .int), ("float", .float), ("timestamp", .moment),
    ("str", .text), ("binary", .bytes), ("merge", .merge), ("value", .standard), ("seq", .list),
    ("map", .map), ("set", .set), ("omap", .pairs), ("pairs", .pairs)]

def ofName (name : String) : Tag :=
  ((Text.rest? "tag:yaml.org,2002:" name).bind fun part => known.lookup part).getD .other

def nullWords : List String := ["~", "null", "Null", "NULL"]

def truthWords : List (String × Bool) :=
  [("yes", true), ("no", false), ("true", true), ("false", false), ("on", true), ("off", false)]

/-- Whether the text is a word for a truth value, written small, large or with a capital. -/
def isTruthWord (text : String) : Bool :=
  truthWords.any fun (word, _) =>
    text == word || text == Text.upper word
      || text == String.ofList (Text.titleFrom false word.toList)

/-- The signs that could stand for further kinds. -/
def reserved : List String := ["!", "&", "*"]

/-- The kind of a text without a tag. A line feed at its very end does not count, but a text that
is nothing else is a text. -/
def ofPlain (text : String) : Tag :=
  let cs := text.toList
  let cs := if cs.getLast? = some '\n' then cs.dropLast else cs
  let word := String.ofList cs
  if text = "" ∨ nullWords.contains word then .null
  else if isTruthWord word then .bool
  else if word = "<<" then .merge
  else if word = "=" then .standard
  else if reserved.contains word then .other
  else if isInt cs then .int
  else if isFloat cs then .float
  else if isMoment cs then .moment
  else .text

/-- The kind of a scalar: by its tag, by its look if it is plain, or else a text. -/
def ofScalar (name : Option String) (text : String) (plain : Bool) : Tag :=
  match name with
  | none => if plain then ofPlain text else .text
  | some name => if name = "!" then ofPlain text else ofName name

/-- The kind of a sequence or a mapping: by its tag, or else the usual one. -/
def ofCollection (usual : Tag) (name : Option String) : Tag :=
  match name with
  | none => usual
  | some name => if name = "!" then usual else ofName name

end Tag

end ApiBinding.Yaml
