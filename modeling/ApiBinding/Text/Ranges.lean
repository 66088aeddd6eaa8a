/-!
Sets of code points given by the places where they begin and end.
-/

namespace ApiBinding.Text

/-- Whether a code point lies in the set whose stretches begin and end at the given ascending
bounds: it does when an odd number of them are at most the code point. -/
def within (bounds : List Nat) (point : Nat) : Bool :=
  (bounds.takeWhile (· ≤ point)).length % 2 == 1

end ApiBinding.Text
