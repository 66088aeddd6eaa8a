import ApiBinding.Yaml.Written

/-!
Values read from YAML text, by version 1.1 of the format.
-/

namespace ApiBinding.Yaml

/-- The value that a text gives; an empty text gives null. -/
def read (s : String) : Except Problem Value := do
  let (graph, root?) ← Node.ofTokens (Token.scan s)
  match root? with
  | none => return .null
  | some root => return (← Building.ofGraph graph root).value root

end ApiBinding.Yaml
