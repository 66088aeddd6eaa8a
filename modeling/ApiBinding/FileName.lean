import ApiBinding.Text.Case
import ApiBinding.Text.Half
import ApiBinding.Text.Pieces

/-!
Names of files: the parts between slashes and what they tell of a file.
-/

namespace ApiBinding.FileName

/-- The slashes that a name starts with, where all but two count as one. -/
def root (name : String) : String :=
  match (name.toList.takeWhile (· == '/')).length with
  | 0 => ""
  | 2 => "//"
  | _ => "/"

/-- The parts of a name between slashes, without those that change nothing. -/
def parts (name : String) : List String :=
  (Text.piecesAt '/' name).filter fun part => part != "" && part != "."

def normal (name : String) : String :=
  let short := root name ++ Text.joined "/" (parts name)
  if short = "" then "." else short

/-- Whether the name leads to a directory whatever files there are. -/
def isDirectory (name : String) : Bool := (parts name).all (· == "..")

/-- Whether the code is a half that stands for a single byte. -/
def isByteHalf (code : Nat) : Bool := 0xdc80 ≤ code && code < 0xdd00

/-- Whether bytes can spell the name: of the halves only those that stand for bytes are in it. -/
def isSpelled (name : String) : Bool :=
  (Text.codes name.toList).all fun code => !Text.isHalf code || isByteHalf code

def byteCount (code : Nat) : Nat := if isByteHalf code then 1 else (Char.ofNat code).utf8Size

def byteSize (name : String) : Nat :=
  (Text.codes name.toList).foldl (fun count code => count + byteCount code) 0

/-- Whether the name is too long as a whole, or the first part that leads down is. -/
def isTooLong (name : String) : Bool :=
  4096 ≤ byteSize (normal name)
    || ((parts name).find? (· != "..")).any fun part => 255 < byteSize part

/-- What follows the last point of the last part, with the point and in lower case; a point at
either end of the part does not count. -/
def extension (name : String) : String :=
  match (parts name).getLast?.bind fun last => Text.splitLast? '.' last.toList with
  | some (stem, ending) =>
    if stem.isEmpty ∨ ending.isEmpty then "" else "." ++ Text.lower (String.ofList ending)
  | none => ""

end ApiBinding.FileName
