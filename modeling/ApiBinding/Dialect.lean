import ApiBinding.Failure
import ApiBinding.Number.Numeral

/-!
Which language features a generated module may use, by the version of Python that it targets.
-/

namespace ApiBinding

/-- The language features on which the text of a module depends. -/
structure Dialect where
  postponedAnnotations : Bool
  unionOperator : Bool
  typingExtensions : Bool
  typingOverride : Bool
deriving DecidableEq

namespace Dialect

def ofVersion (major minor : Int) : Dialect :=
  if major < 3 ∨ (major = 3 ∧ minor ≤ 9) then ⟨true, false, true, false⟩
  else if major = 3 ∧ minor = 10 then ⟨true, true, true, false⟩
  else if major = 3 ∧ minor = 11 then ⟨true, true, false, false⟩
  else ⟨true, true, false, true⟩

def number (s : String) : Except Failure Int :=
  match Numeral.int? s with
  | some i => .ok i
  | none => .error (.misuse .numeral)

/-- The features of a version written as numbers between points; the first two count. -/
def ofText (version : String) : Except Failure Dialect :=
  match Text.piecesAt '.' version with
  | [] => .error (.misuse .numeral)
  | [major] => do return ofVersion (← number major) 0
  | major :: minor :: _ => do
    let major ← number major
    let minor ← number minor
    return ofVersion major minor

def ofNumbers : List Int → Except Failure Dialect
  | [major, minor] => .ok (ofVersion major minor)
  | _ => .error (.misuse .numeral)

end Dialect

end ApiBinding
