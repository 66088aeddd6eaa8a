import ApiBinding.Failure

/-!
Tables of generated names with what each stands for. A name that is entered again has to stand for
the same.
-/

namespace ApiBinding

/-- Generated names, each with its source, in the order of entry. -/
abbrev NameTable := List (String × String)

namespace NameTable

def source? (table : NameTable) (name : String) : Option String :=
  Entries.get? (· == ·) name table

def enter (scope : NameScope) (table : NameTable) (name source : String) :
    Except Failure NameTable :=
  match table.source? name with
  | none => .ok (table ++ [(name, source)])
  | some existing =>
    if existing = source then .ok table else .error (.collision scope name existing source)

/-- Enters names with their sources one by one; the table is answered as it stands at the end or at
the first name that is refused. -/
def enterAll (scope : NameScope) (table : NameTable) :
    List (String × String) → NameTable × Except Failure Unit
  | [] => (table, .ok ())
  | (name, source) :: rest =>
    match table.enter scope name source with
    | .ok table => enterAll scope table rest
    | .error failure => (table, .error failure)

end NameTable

end ApiBinding
