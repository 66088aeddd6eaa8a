import ApiBinding.Entries
import ApiBinding.Moment
import ApiBinding.Number.Shortest
import ApiBinding.Text.Pieces
import ApiBinding.Text.Quoted

/-!
Values as they stand in descriptions and settings: scalars, lists and maps with their entries in
order. Numbers of different kinds are different values but equal ones when they are compared. A
value that holds itself is finite all the same: where it comes back to itself only its name stands.
-/

namespace ApiBinding

/-- A value without parts. A `nan` is a number that is none, which is told apart from others by its
name and equals itself. -/
inductive Scalar where
  | null
  | bool (b : Bool)
  | int (i : Int)
  | float (x : Binary64)
  | nan (name : Nat)
  | text (s : String)
  | bytes (bytes : List UInt8)
  | moment (m : Moment)
deriving DecidableEq

/-- A scalar, a list of values, a map from scalars to values, a set of scalars or a pair of values.
A `knot` is a collection with a name, which stands for the whole of it wherever it is met `again`
inside. -/
inductive Value where
  | scalar (s : Scalar)
  | list (items : List Value)
  | map (entries : List (Scalar × Value))
  | set (members : List Scalar)
  | pair (first second : Value)
  | knot (name : Nat) (body : Value)
  | again (name : Nat)

namespace Scalar

def whole? : Scalar → Option Int
  | .bool b => some (if b then 1 else 0)
  | .int i => some i
  | _ => none

/-- Equality by which numbers are compared across their kinds and truth values count as 0 and 1. -/
def same : Scalar → Scalar → Bool
  | .null, .null => true
  | .nan m, .nan n => m == n
  | .text s, .text t => s == t
  | .bytes b, .bytes c => b == c
  | .moment m, .moment n => m.same n
  | .float x, .float y => x.same y
  | .float x, s => (s.whole?.map x.isInt).getD false
  | s, .float y => (s.whole?.map y.isInt).getD false
  | s, t =>
    match s.whole?, t.whole? with
    | some i, some j => i == j
    | _, _ => false

/-- Whether the scalar counts as true: it is not null, false, zero or empty. -/
def truth : Scalar → Bool
  | .null => false
  | .bool b => b
  | .int i => i != 0
  | .float x => !x.isZero
  | .text s => s != ""
  | .bytes b => !b.isEmpty
  | .nan _ | .moment _ => true

def literal : Scalar → String
  | .null => "None"
  | .bool b => if b then "True" else "False"
  | .int i => toString i
  | .float x => x.text
  | .nan _ => Binary64.nan.text
  | .text s => Text.quoted s
  | .bytes b => Text.quotedBytes b
  | .moment m => m.literal

/-- The scalar as text, in which a text stands without quotes. -/
def display : Scalar → String
  | .text s => s
  | .moment m => m.text
  | s => s.literal

end Scalar

namespace Value

@[match_pattern] abbrev null : Value := .scalar .null
@[match_pattern] abbrev text (s : String) : Value := .scalar (.text s)
@[match_pattern] abbrev bool (b : Bool) : Value := .scalar (.bool b)

instance : Inhabited Value := ⟨null⟩

mutual

/-- The value with another one wherever a name stands for it. -/
def withNamed (name : Nat) (whole : Value) : Value → Value
  | .scalar s => .scalar s
  | .list items => .list (itemsWithNamed name whole items)
  | .map entries => .map (entriesWithNamed name whole entries)
  | .set members => .set members
  | .pair first second => .pair (withNamed name whole first) (withNamed name whole second)
  | .knot inner body => .knot inner (if inner = name then body else withNamed name whole body)
  | .again other => if other = name then whole else .again other

def itemsWithNamed (name : Nat) (whole : Value) : List Value → List Value
  | [] => []
  | v :: rest => withNamed name whole v :: itemsWithNamed name whole rest

def entriesWithNamed (name : Nat) (whole : Value) : List (Scalar × Value) → List (Scalar × Value)
  | [] => []
  | (k, v) :: rest => (k, withNamed name whole v) :: entriesWithNamed name whole rest

end

/-- The value as a collection that shows its parts, which know what they are inside of. -/
def opened : Value → Value
  | .knot name body => withNamed name (.knot name body) body
  | v => v

def get? (key : String) (v : Value) : Option Value :=
  match v.opened with
  | .map entries => Entries.get? Scalar.same (.text key) entries
  | _ => none

def get (key : String) (v : Value) : Value := (v.get? key).getD null

def isMap (v : Value) : Bool :=
  match v.opened with
  | .map _ => true
  | _ => false

def isNull : Value → Bool
  | .scalar .null => true
  | _ => false

def isText (s : String) : Value → Bool
  | .text t => t == s
  | _ => false

/-- Whether the value counts as true; one that holds itself is not empty. -/
def truth : Value → Bool
  | .scalar s => s.truth
  | .list items => !items.isEmpty
  | .map entries => !entries.isEmpty
  | .set members => !members.isEmpty
  | .pair .. | .knot .. | .again _ => true

/-- Equality of scalars and of pairs of them; other values equal nothing by it. -/
def same : Value → Value → Bool
  | .scalar s, .scalar t => s.same t
  | .pair a b, .pair c d => same a c && same b d
  | _, _ => false

/-- Whether the value can be told apart from others by equality: it has no parts that can change. -/
def isFixed : Value → Bool
  | .scalar _ => true
  | .pair first second => first.isFixed && second.isFixed
  | _ => false

def brackets : Value → String × String
  | .list _ => ("[", "]")
  | .pair .. => ("(", ")")
  | _ => ("\x7b", "\x7d")

def bracketed (collection : Value) (inside : String) : String :=
  collection.brackets.1 ++ inside ++ collection.brackets.2

mutual

/-- The value as a literal inside of the collections with the given names and bodies, which are
left out where they are met again. -/
def literalIn (around : List (Nat × Value)) : Value → String
  | .scalar s => s.literal
  | .list items => bracketed (.list items) (Text.joined ", " (itemLiterals around items))
  | .map entries => bracketed (.map entries) (Text.joined ", " (entryLiterals around entries))
  | .set [] => "set()"
  | .set members => bracketed (.set members) (Text.joined ", " (members.map Scalar.literal))
  | .pair first second =>
    bracketed (.pair first second) (literalIn around first ++ ", " ++ literalIn around second)
  | .knot name body =>
    if (around.lookup name).isSome then bracketed body "..."
    else literalIn ((name, body) :: around) body
  | .again name => bracketed ((around.lookup name).getD .null) "..."

def itemLiterals (around : List (Nat × Value)) : List Value → List String
  | [] => []
  | v :: rest => literalIn around v :: itemLiterals around rest

def entryLiterals (around : List (Nat × Value)) : List (Scalar × Value) → List String
  | [] => []
  | (k, v) :: rest => (k.literal ++ ": " ++ literalIn around v) :: entryLiterals around rest

end

def literal (v : Value) : String := v.literalIn []

mutual

def size : Value → Nat
  | .scalar _ | .set _ | .again _ => 1
  | .list items => itemsSize items + 1
  | .map entries => entriesSize entries + 1
  | .pair first second => size first + size second + 1
  | .knot _ body => size body + 1

def itemsSize : List Value → Nat
  | [] => 0
  | v :: rest => size v + itemsSize rest

def entriesSize : List (Scalar × Value) → Nat
  | [] => 0
  | (_, v) :: rest => size v + entriesSize rest

end

def display : Value → String
  | .scalar s => s.display
  | v => v.literal

end Value

end ApiBinding
