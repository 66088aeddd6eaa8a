import ApiBinding.TypeHint

/-!
Declarations of named types: records with their fields, names for mappings, and enumerations.
-/

namespace ApiBinding

inductive DeclarationBody where
  | record (fields : List (FieldOf TypeHint))
  | synonym (type : TypeHint)
  | enumeration (members : List Value)

/-- The declaration of a type, with the name of the schema it comes from. -/
structure Declaration where
  name : String
  source : String
  body : DeclarationBody

namespace Declaration

def hasFields (declaration : Declaration) : Bool :=
  match declaration.body with
  | .record fields => !fields.isEmpty
  | _ => false

def fieldLine (field : FieldOf TypeHint) : String :=
  let type := field.type.text .declared
  let type := if field.required then "Required[" ++ type ++ "]" else type
  "        " ++ field.name.literal ++ ": " ++ type ++ ","

def lines (declaration : Declaration) : List String :=
  match declaration.body with
  | .enumeration members =>
    [declaration.name ++ " = Literal[" ++ Text.joined ", " (members.map Value.literal) ++ "]",
      "", ""]
  | .synonym type => [declaration.name ++ " = " ++ type.text .declared, "", ""]
  | .record fields =>
    [declaration.name ++ " = TypedDict(", "    " ++ Text.quoted declaration.name ++ ",",
      "    \x7b"] ++ fields.map fieldLine ++ ["    \x7d,", "    total=False,", ")", "", ""]

end Declaration

end ApiBinding
