import ApiBinding.Failure

/-!
Why a YAML text is not read.
-/

namespace ApiBinding.Yaml

/-- A text is out of form, or a scalar in it cannot be what it has to be. -/
inductive Problem where
  | malformed
  | misuse (kind : Misuse)
deriving DecidableEq

def orMalformed {α : Type} : Option α → Except Problem α
  | some a => .ok a
  | none => .error .malformed

def orMisuse {α : Type} (kind : Misuse) : Option α → Except Problem α
  | some a => .ok a
  | none => .error (.misuse kind)

end ApiBinding.Yaml
