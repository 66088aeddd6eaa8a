import ApiBinding.Method

/-!
Path templates: texts in which names between braces stand for arguments. A brace that does not
enclose a name stands for itself.
-/

namespace ApiBinding.PathTemplate

inductive Part where
  | text (cs : List Char)
  | placeholder (name : List Char)
deriving DecidableEq

/-- Reads parts. `text` holds the text before, in reverse; `opened` holds what stands since the last
open brace, in reverse, if no brace came after it. -/
def partsFrom (text : List Char) (opened : Option (List Char)) : List Char → List Part
  | [] =>
    match opened with
    | none => [.text text.reverse]
    | some name => [.text (name ++ '\x7b' :: text).reverse]
  | c :: rest =>
    match opened with
    | none =>
      if c = '\x7b' then partsFrom text (some []) rest else partsFrom (c :: text) none rest
    | some name =>
      if c = '\x7b' then partsFrom (name ++ '\x7b' :: text) (some []) rest
      else if c = '\x7d' then
        if name.isEmpty then partsFrom ('\x7d' :: '\x7b' :: text) none rest
        else .text text.reverse :: .placeholder name.reverse :: partsFrom [] none rest
      else partsFrom text (some (c :: name)) rest

def parts (path : String) : List Part := partsFrom [] none path.toList

/-- The template that consists of the given parts. -/
def source : List Part → List Char
  | [] => []
  | .text cs :: rest => cs ++ source rest
  | .placeholder name :: rest => '\x7b' :: name ++ '\x7d' :: source rest

/-- A piece of a path: a text that stands as it is, or the value of an argument. -/
inductive Piece where
  | text (cs : List Char)
  | value (argument : Argument)

/-- The last of the arguments that is sent under this name. -/
def argumentFor? (arguments : List Argument) (name : List Char) : Option Argument :=
  arguments.reverse.find? fun argument => argument.sentName == String.ofList name

/-- The text so far as a piece, unless it is empty. -/
def textPiece (text : List Char) : List Piece :=
  if text.isEmpty then [] else [.text text]

/-- The pieces for parts after the given text. Placeholders without an argument stay text. -/
def piecesFrom (arguments : List Argument) (text : List Char) : List Part → List Piece
  | [] => textPiece text
  | .text cs :: rest => piecesFrom arguments (text ++ cs) rest
  | .placeholder name :: rest =>
    match argumentFor? arguments name with
    | some argument => textPiece text ++ .value argument :: piecesFrom arguments [] rest
    | none => piecesFrom arguments (text ++ '\x7b' :: name ++ ['\x7d']) rest

def pieces (arguments : List Argument) (path : String) : List Piece :=
  piecesFrom arguments [] (parts path)

end ApiBinding.PathTemplate
