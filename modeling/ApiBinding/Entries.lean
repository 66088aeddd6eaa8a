/-!
Entries in the order in which their keys first appeared. Writing to a key that is present replaces
its value in place.
-/

namespace ApiBinding.Entries

variable {κ α : Type}

/-- The value at a key, where keys are compared by `same`. -/
def get? (same : κ → κ → Bool) (key : κ) : List (κ × α) → Option α
  | [] => none
  | (k, a) :: rest => if same k key then some a else get? same key rest

/-- Writes the value at a key: in place if the key is present, else at the end. -/
def put (same : κ → κ → Bool) (key : κ) (value : α) : List (κ × α) → List (κ × α)
  | [] => [(key, value)]
  | (k, a) :: rest => if same k key then (k, value) :: rest else (k, a) :: put same key value rest

/-- The elements without those that equal an earlier one by `same`. -/
def distinct (same : α → α → Bool) : List α → List α
  | [] => []
  | a :: rest => a :: (distinct same rest).filter fun b => !same a b

end ApiBinding.Entries
