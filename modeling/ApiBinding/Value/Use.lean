import ApiBinding.Failure
import ApiBinding.Number.Numeral
import ApiBinding.Text.Half

/-!
Uses of values that may turn out to be of the wrong kind, or to hold a number that is too long to be
written.
-/

namespace ApiBinding

/-- Whether the scalar can be written: a whole number must not have too many digits. -/
def Scalar.isWritable : Scalar → Bool
  | .int i => decide (i.natAbs < Nat.pow 10 Numeral.digitLimit)
  | _ => true

namespace Value

mutual

/-- The scalars in a value, those that are keys among them. -/
def scalars : Value → List Scalar
  | .scalar s => [s]
  | .list items => itemScalars items
  | .map entries => entryScalars entries
  | .set members => members
  | .pair first second => scalars first ++ scalars second
  | .knot _ body => scalars body
  | .again _ => []

def itemScalars : List Value → List Scalar
  | [] => []
  | v :: rest => scalars v ++ itemScalars rest

def entryScalars : List (Scalar × Value) → List Scalar
  | [] => []
  | (k, v) :: rest => k :: scalars v ++ entryScalars rest

end

def checkWritable (v : Value) : Except Failure Unit :=
  if v.scalars.all Scalar.isWritable then .ok () else .error (.misuse .numeral)

/-- The elements that a value gives when it is gone through: the items of a list, the keys of a map,
the characters of a text, the bytes of bytes. -/
def elements (v : Value) : Except Failure (List Value) :=
  match v.opened with
  | .list items => .ok items
  | .map entries => .ok (entries.map fun entry => .scalar entry.1)
  | .set members => .ok (members.map .scalar)
  | .pair first second => .ok [first, second]
  | .text s => .ok ((Text.units s.toList).map fun unit => .text (String.ofList unit))
  | .scalar (.bytes bytes) => .ok (bytes.map fun byte => .scalar (.int byte.toNat))
  | _ => .error (.misuse .wrongKind)

def entries (v : Value) : Except Failure (List (Scalar × Value)) :=
  match v.opened with
  | .map entries => .ok entries
  | _ => .error (.misuse .noMember)

def member? (key : String) (v : Value) : Except Failure (Option Value) := do
  return Entries.get? Scalar.same (.text key) (← v.entries)

def member (key : String) (v : Value) : Except Failure Value := do
  return (← v.member? key).getD null

/-- The first part of a value whose parts are in order, or what a map has at zero. -/
def first (v : Value) : Except Failure Value :=
  match v.opened with
  | .map entries =>
    match Entries.get? Scalar.same (.int 0) entries with
    | some v => .ok v
    | none => .error (.misuse .missingEntry)
  | .set _ => .error (.misuse .wrongKind)
  | v => do
    match ← v.elements with
    | part :: _ => return part
    | [] => throw (.misuse .pastEnd)

/-- Whether a text stands in a value: as a part of a text or an element of anything but bytes. -/
def holds (s : String) : Value → Except Failure Bool
  | .text t => .ok (Text.occurs s.toList t.toList)
  | .scalar _ => .error (.misuse .wrongKind)
  | v => do return (← v.elements).any (isText s)

def asText : Value → Except Failure String
  | .text s => .ok s
  | _ => .error (.misuse .wrongKind)

/-- The scalar that a value is; other values cannot be told apart by a key. -/
def asKey : Value → Except Failure Scalar
  | .scalar s => .ok s
  | _ => .error (.misuse .wrongKind)

end Value

end ApiBinding
