import ApiBinding.Value

/-!
The order of the members of a set. The members are kept in a table, each at a place that its own
size gives, and are met in the order of the table. For numbers that order is a rule; members of
other kinds stay in the order in which they are written.
-/

namespace ApiBinding.Yaml.Members

/-- The prime by which the mark of a number is reduced. -/
def modulus : Nat := 2305843009213693951

/-- The mark with a sign; minus one is no mark and stands as minus two. -/
def signed (negative : Bool) (residue : Nat) : Int :=
  if !negative then (residue : Int) else if residue = 1 then -2 else -(residue : Int)

/-- The mark of a number, by which its place in a table is chosen. Equal numbers of different kinds
have one mark. The powers of two repeat after 61 steps by this modulus. -/
def mark? : Scalar → Option Int
  | .float (.finite negative significand exponent) =>
    some (signed negative (significand * Binary64.twoTo (exponent % 61) % modulus))
  | .float (.infinite negative) => some (signed negative 314159)
  | s => s.whole?.map fun i => signed (decide (i < 0)) (i.natAbs % modulus)

/-- The number of places of a table for so many members: a power of two, eight for up to four and
else more than twice their number. -/
def places (count : Nat) : Nat := if count ≤ 4 then 8 else Nat.pow 2 (Nat.log2 (2 * count) + 1)

/-- Puts a member at the first free place of its walk through the table. The nine places after
each one are tried as well if the table has them all; the next one comes from five times the last
and what is left of the mark. -/
def place (member : Scalar) : Nat → Nat → Nat → Array (Option Scalar) → Array (Option Scalar)
  | 0, _, _, table => table
  | fuel + 1, spot, rest, table =>
    let reach := if spot + 9 < table.size then 10 else 1
    match (List.range' spot reach).find? fun i => (table[i]?).join.isNone with
    | some i => table.setIfInBounds i (some member)
    | none => place member fuel ((5 * spot + 1 + rest / 32) % table.size) (rest / 32) table

/-- Puts a member with a mark into the table. What is left of a mark of 64 bits is nothing after 13
steps, and from then on the walk meets every place. -/
def enter (table : Array (Option Scalar)) (member : Scalar) (mark : Int) : Array (Option Scalar) :=
  let bits := (mark % 18446744073709551616).toNat
  place member (table.size + 13) (bits % table.size) bits table

/-- The members of a set in the order in which they are met. -/
def ordered (members : List Scalar) : List Scalar :=
  match members.mapM mark? with
  | none => members
  | some marks =>
    let table := Array.replicate (places members.length) none
    ((members.zip marks).foldl (fun table (member, mark) => enter table member mark) table).toList
      |>.filterMap id

end ApiBinding.Yaml.Members
