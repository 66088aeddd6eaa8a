import ApiBinding.Description.Shape
import ApiBinding.Dialect
import ApiBinding.Identifier

/-!
Type hints of generated code and the hints of shapes. Whether null is allowed is kept
apart from the rest until a hint is written, since the way to write it depends on the
language version.
-/

namespace ApiBinding

inductive Container where
  | list
  | mapping
  | stream
  | producer
  | generic (name : String)
deriving DecidableEq

/-- A type hint; `isModel` marks the names of types that the module declares. -/
inductive TypeHint where
  | any (nullable : Bool)
  | named (name : String) (isModel nullable : Bool)
  | literal (members : List Value) (nullable : Bool)
  | applied (container : Container) (arguments : List TypeHint) (nullable : Bool)

namespace TypeHint

def nullable : TypeHint → Bool
  | any nullable => nullable
  | named _ _ nullable => nullable
  | literal _ nullable => nullable
  | applied _ _ nullable => nullable

def withNull (nullable : Bool) : TypeHint → TypeHint
  | any _ => any nullable
  | named name isModel _ => named name isModel nullable
  | literal members _ => literal members nullable
  | applied container arguments _ => applied container arguments nullable

def none : TypeHint := named "None" false false

def element? : TypeHint → Option TypeHint
  | applied _ (argument :: _) _ => some argument
  | _ => Option.none

inductive Usage where
  | response
  | parameter
  | body
deriving DecidableEq

/-- Where a shape is annotated: its use, and whether the operation streams it. -/
structure Context where
  usage : Usage
  streamsResult : Bool := false
  streamsBody : Bool := false
deriving DecidableEq

namespace Context

def response : Context := { usage := .response }

/-- The context of what a shape contains, which is never streamed by itself. -/
def inner (context : Context) : Context := { usage := context.usage }

def arrayContainer (context : Context) (streamable : Bool) : Container :=
  if streamable && context.usage = .response && context.streamsResult then .stream
  else if streamable && context.usage = .body && context.streamsBody then .producer
  else .list

end Context

def genericContainer (name : String) : Container :=
  let key := String.ofList (name.toList.map Char.toLower)
  if ["list", "array", "sequence", "collection", "enumerable"].contains key then .list
  else if ["dict", "dictionary", "map", "mapping"].contains key then .mapping
  else .generic (Identifier.ofRaw .type name)

def ofPrimitive (kind : Primitive) (nullable : Bool) : TypeHint :=
  match kind with
  | .string => named "str" false nullable
  | .integer => named "int" false nullable
  | .number => named "float" false nullable
  | .boolean => named "bool" false nullable
  | .binary => named "bytes" false nullable
  | .any => any nullable

def ofShape (context : Context) : Shape → TypeHint
  | .primitive kind nullable => ofPrimitive kind nullable
  | .array element nullable streamable =>
    applied (context.arrayContainer streamable) [ofShape context.inner element] nullable
  | .object name _ additional nullable =>
    match Shape.label? name with
    | some label => named (Identifier.ofRaw .type label) true nullable
    | Option.none =>
      match additional with
      | some value => applied .mapping [ofShape context.inner value] nullable
      | Option.none => applied .mapping [any false] nullable
  | .enumeration name members nullable =>
    match Shape.label? name with
    | some label => named (Identifier.ofRaw .type label) true nullable
    | Option.none =>
      if members.isEmpty then any nullable
      else literal (Entries.distinct Value.same members) nullable
  | .generic name argument nullable =>
    applied (genericContainer name) [ofShape context.inner argument] nullable
  | .unknown _ nullable => any nullable

/-- Whether the enumerations that the hint of a shape spells out have members that can be told
apart. -/
def canSpell : Shape → Bool
  | .array element _ _ => canSpell element
  | .object name _ additional _ =>
    match Shape.label? name, additional with
    | Option.none, some value => canSpell value
    | _, _ => true
  | .enumeration name members _ => (Shape.label? name).isSome || members.all Value.isFixed
  | .generic _ argument _ => canSpell argument
  | _ => true

/-- The hint of a shape, for which the members it spells out have to be told apart. -/
def ofShape? (context : Context) (shape : Shape) : Except Failure TypeHint :=
  if canSpell shape then .ok (ofShape context shape) else .error (.misuse .wrongKind)

/-- How hints are written: with the union operator or without, and with the names of declared
types in quotes or not. -/
structure Style where
  unionOperator : Bool
  quoteModels : Bool

def Style.inline (dialect : Dialect) : Style := ⟨dialect.unionOperator, false⟩

/-- The style of hints that are evaluated when the module is loaded. -/
def Style.declared : Style := ⟨false, true⟩

def optionalText (style : Style) (base : String) : String :=
  if base = "Any" ∨ base = "None" then base
  else if style.unionOperator then base ++ " | None"
  else "Optional[" ++ base ++ "]"

def Container.text (container : Container) (arguments : String) : String :=
  match container with
  | .list => "list[" ++ arguments ++ "]"
  | .mapping => "dict[str, " ++ arguments ++ "]"
  | .stream => "AsyncIterator[" ++ arguments ++ "]"
  | .producer => "AsyncIterable[" ++ arguments ++ "]"
  | .generic name => name ++ "[" ++ arguments ++ "]"

mutual

def text (style : Style) : TypeHint → String
  | any nullable => if nullable then optionalText style "Any" else "Any"
  | named name isModel nullable =>
    let base := if isModel && style.quoteModels then Text.quoted name else name
    if nullable then optionalText style base else base
  | literal members nullable =>
    let base := "Literal[" ++ Text.joined ", " (members.map Value.literal) ++ "]"
    if nullable then optionalText style base else base
  | applied container arguments nullable =>
    let base := Container.text container (Text.joined ", " (texts style arguments))
    if nullable then optionalText style base else base

def texts (style : Style) : List TypeHint → List String
  | [] => []
  | hint :: rest => text style hint :: texts style rest

end

end TypeHint

end ApiBinding
