/-!
Texts as sequences of lines. Every control or separator character that ends a line counts, and a
carriage return with the line feed after it ends one line together.
-/

namespace ApiBinding.Text

def isLineEnd (c : Char) : Bool :=
  let n := c.toNat
  (10 ≤ n && n ≤ 13) || (28 ≤ n && n ≤ 30) || n == 0x85 || n == 0x2028 || n == 0x2029

def OneLine (s : String) : Prop := ∀ c ∈ s.toList, isLineEnd c = false

/-- The lines that start with the given characters, which are kept in reverse. -/
def linesFrom (start : List Char) : List Char → List (List Char)
  | [] => if start.isEmpty then [] else [start.reverse]
  | '\r' :: '\n' :: rest => start.reverse :: linesFrom [] rest
  | c :: rest =>
    if isLineEnd c then start.reverse :: linesFrom [] rest else linesFrom (c :: start) rest

/-- The lines of a text without their ends; a line end at the very end starts no further line. -/
def lines (s : String) : List String :=
  (linesFrom [] s.toList).map String.ofList

/-- The text with every carriage return, alone or before a line feed, turned into a line feed. -/
def withLineFeeds : List Char → List Char
  | [] => []
  | '\r' :: '\n' :: rest => '\n' :: withLineFeeds rest
  | c :: rest => (if c = '\r' then '\n' else c) :: withLineFeeds rest

end ApiBinding.Text
