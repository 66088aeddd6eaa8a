import ApiBinding.Value
import ApiBinding.Yaml.Object

/-!
Values written out from objects. Objects that hold themselves, and those around them, are written as
knots, which have their numbers for names.
-/

namespace ApiBinding.Yaml

namespace Object

def parts : Object → List Nat
  | .scalar _ | .set _ => []
  | .list items => items
  | .map entries => entries.map Prod.snd
  | .pair first second => [first, second]

/-- What an object gives if its parts are written out. -/
def written (part : Nat → Value) : Object → Value
  | .scalar s => .scalar s
  | .set members => .set members
  | .list items => .list (items.map part)
  | .map entries => .map (entries.map fun entry => (entry.1, part entry.2))
  | .pair first second => .pair (part first) (part second)

end Object

namespace Building

def settleAt (building : Building) (number : Nat) (settled : Array (Option Value)) :
    Array (Option Value) :=
  match (settled[number]?).join, building.object? number with
  | none, some object =>
    if object.parts.all fun part => ((settled[part]?).join).isSome then
      let part (n : Nat) : Value := ((settled[n]?).join).getD .null
      settled.setIfInBounds number (some (object.written part))
    else settled
  | _, _ => settled

def settledCount (settled : Array (Option Value)) : Nat := settled.countP Option.isSome

/-- Writes out objects as long as there is one whose parts are written out. Parts have higher
numbers except where a name refers back, so the highest numbers come first. -/
def settle (building : Building) : Nat → Array (Option Value) → Array (Option Value)
  | 0, settled => settled
  | fuel + 1, settled =>
    let before := settledCount settled
    let settled := (List.range settled.size).foldr (settleAt building) settled
    if settledCount settled = before then settled else settle building fuel settled

/-- Writes out an object inside of others, for which their names stand where they are met again. The
fuel exceeds the number of objects, none of which is inside of itself twice. -/
def write (building : Building) (settled : Array (Option Value)) : Nat → List Nat → Nat → Value
  | 0, _, number => .again number
  | fuel + 1, around, number =>
    match (settled[number]?).join, building.object? number with
    | some v, _ => v
    | none, some object =>
      if around.contains number then .again number
      else .knot number (object.written (write building settled fuel (number :: around)))
    | none, none => .null

/-- The value of the outermost object. What leads to nothing that holds itself is written out once
only. -/
def value (building : Building) (root : Nat) : Value :=
  let count := building.objects.size
  let settled := building.settle (count + 1) (Array.replicate count none)
  building.write settled (count + 1) [] root

end Building

end ApiBinding.Yaml
