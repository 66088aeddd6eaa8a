import ApiBinding.Failure
import ApiBinding.Identifier
import ApiBinding.Text.Blank

/-!
References by which settings name single methods: a client, by its tag or its class, and a method.
Sets of references are lists in ascending order of their texts.
-/

namespace ApiBinding

structure MethodReference where
  client : String
  method : String
deriving DecidableEq

namespace MethodReference

def text (reference : MethodReference) : String := reference.client ++ "." ++ reference.method

/-- The client and the method as identifiers, by which references are compared with operations. -/
def identifiers (reference : MethodReference) : String × String :=
  (Identifier.ofRaw .type reference.client, Identifier.ofRaw .method reference.method)

/-- The reference that a text denotes: what stands before its last point and what stands after it,
blanks around the text apart. -/
def parse (s : String) : Except Failure MethodReference :=
  match Text.splitLast? '.' (Text.trim s.toList) with
  | some (client, method) =>
    if client = [] ∨ method = [] then .error (.settings (.methodReference s))
    else .ok ⟨String.ofList client, String.ofList method⟩
  | none => .error (.settings (.methodReference s))

def ofValue : Value → Except Failure MethodReference
  | .text s => parse s
  | _ => .error (.misuse .noMember)

/-- Adds a reference to an ascending list without repetition. -/
def insert (reference : MethodReference) : List MethodReference → List MethodReference
  | [] => [reference]
  | r :: rest =>
    if reference = r then r :: rest
    else if Text.precedes reference.text r.text then reference :: r :: rest
    else r :: insert reference rest

def setOf (values : List Value) : Except Failure (List MethodReference) := do
  return (← values.mapM ofValue).foldl (fun set reference => insert reference set) []

/-- Whether one of the references names a method that answers to the given pairs. -/
def lists (references : List MethodReference) (pairs : List (String × String)) : Bool :=
  references.any fun reference => pairs.contains reference.identifiers

end MethodReference

end ApiBinding
