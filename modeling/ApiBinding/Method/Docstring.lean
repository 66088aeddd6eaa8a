import ApiBinding.Text.Blank
import ApiBinding.Text.Lines
import ApiBinding.Text.Pieces

/-!
Docstrings: the summary of a method between triple quotes.
-/

namespace ApiBinding.Docstring

/-- The text of a docstring before it is escaped: the summary and a note on deprecation. -/
def content (summary : String) (deprecated : Bool) : String :=
  let text := Text.trimmed summary
  if deprecated then
    if text = "" then "Deprecated." else text ++ "\n\nDeprecated."
  else text

def escaped (text : String) : String :=
  Text.replaced "\"\"\"" "\\\"\\\"\\\"" (Text.replaced "\\" "\\\\" text)

/-- A line after the first, indented unless it is empty. -/
def furtherLine (indent line : String) : String :=
  if line = "" then "" else indent ++ line

def lines (indent summary : String) (deprecated : Bool) : List String :=
  match Text.lines (escaped (content summary deprecated)) with
  | [] => []
  | [line] => [indent ++ "\"\"\"" ++ line ++ "\"\"\""]
  | line :: rest =>
    (indent ++ "\"\"\"" ++ line) :: rest.map (furtherLine indent) ++ [indent ++ "\"\"\""]

end ApiBinding.Docstring
