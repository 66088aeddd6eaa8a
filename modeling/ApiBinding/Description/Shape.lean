import ApiBinding.Value

/-!
Shapes of the values that an API exchanges: primitives, arrays, objects, enumerations and generic
containers. An object or an enumeration may have a name by which other shapes mean the same one.
-/

namespace ApiBinding

/-- The kinds of primitive values; `any` stands for a value that is not constrained. -/
inductive Primitive where
  | string
  | integer
  | number
  | boolean
  | binary
  | any
deriving DecidableEq

/-- A named property of an object, with its shape in a given form. -/
structure FieldOf (α : Type) where
  name : Scalar
  type : α
  required : Bool := false

inductive Shape where
  | primitive (kind : Primitive) (nullable : Bool)
  | array (element : Shape) (nullable streamable : Bool)
  | object (name : Option String) (fields : List (FieldOf Shape)) (additional : Option Shape)
      (nullable : Bool)
  | enumeration (name : Option String) (members : List Value) (nullable : Bool)
  | generic (name : String) (argument : Shape) (nullable : Bool)
  | unknown (description : Option String) (nullable : Bool)

abbrev Field := FieldOf Shape

namespace Shape

def nullable : Shape → Bool
  | primitive _ nullable => nullable
  | array _ nullable _ => nullable
  | object _ _ _ nullable => nullable
  | enumeration _ _ nullable => nullable
  | generic _ _ nullable => nullable
  | unknown _ nullable => nullable

def orNull : Shape → Shape
  | primitive kind _ => primitive kind true
  | array element _ streamable => array element true streamable
  | object name fields additional _ => object name fields additional true
  | enumeration name members _ => enumeration name members true
  | generic name argument _ => generic name argument true
  | unknown description _ => unknown description true

/-- The name that a shape goes by; an empty name is none. -/
def label? (name : Option String) : Option String := name.filter (· != "")

/-- Whether a value of the shape may be produced or consumed item by item. -/
def canStream : Shape → Bool
  | array _ _ streamable => streamable
  | _ => false

def isBytes : Shape → Bool
  | primitive .binary _ => true
  | _ => false

def isArray : Shape → Bool
  | array .. => true
  | _ => false

end Shape

end ApiBinding
