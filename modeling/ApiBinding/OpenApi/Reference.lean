import ApiBinding.OpenApi.Pointer

/-!
References from one place of a document to another. A reference is a text under `$ref`; one to a
schema by its name gives that name to what it refers to.
-/

namespace ApiBinding.OpenApi

def referenceKey : String := "$ref"

/-- The value to which a reference leads, which has to be in the document. -/
def referenced (document : Value) (reference : String) : Except Failure Value :=
  match Text.rest? "#" reference with
  | some fragment => atFragment document fragment
  | none => .error (.description (.foreignReference reference))

def schemaPlaces : List String := ["#/components/schemas/", "#/definitions/"]

/-- The name of the schema to which a reference leads, if it leads to one by name. -/
def namedSchema? (reference : String) : Option String :=
  match schemaPlaces.findSome? fun place => Text.rest? place reference with
  | some name => if name.toList.contains '/' then none else some (unescapeKey name)
  | none => none

mutual

def referenceCount : Value → Nat
  | .scalar _ | .set _ | .again _ => 0
  | .list items => itemReferenceCount items
  | .map entries => entryReferenceCount entries
  | .pair first second => referenceCount first + referenceCount second
  | .knot _ body => referenceCount body

def itemReferenceCount : List Value → Nat
  | [] => 0
  | v :: rest => referenceCount v + itemReferenceCount rest

def entryReferenceCount : List (Scalar × Value) → Nat
  | [] => 0
  | (key, v) :: rest =>
    (if key = .text referenceKey then 1 else 0) + referenceCount v + entryReferenceCount rest

end

/-- Follows references from a value, where `seen` holds those followed before. One that was followed
before closes a circle. -/
def dereferenceFrom (document : Value) : Nat → List String → Value → Except Failure Value
  | 0, _, _ => .error (.misuse .endless)
  | fuel + 1, seen, v =>
    match v.get? referenceKey with
    | none => .ok v
    | some (.text reference) =>
      if seen.contains reference then .error (.description (.circularReference reference))
      else do dereferenceFrom document fuel (reference :: seen) (← referenced document reference)
    | some _ => .error (.description .referenceKind)

/-- The first value on the chain of references from a value that is no reference. No chain has more
links than there are references. -/
def dereference (document v : Value) : Except Failure Value :=
  dereferenceFrom document (referenceCount document + referenceCount v + 1) [] v

end ApiBinding.OpenApi
