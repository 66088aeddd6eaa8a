import ApiBinding.Entries
import ApiBinding.Text.Base64
import ApiBinding.Yaml.Members
import ApiBinding.Yaml.Merge

/-!
What nodes give. Collections are begun when they are met and filled later, in the order in which
they were met, so that one may stand inside itself. A node gives one object, wherever it stands.
-/

namespace ApiBinding.Yaml

/-- A scalar, or a collection that knows its parts by their numbers. -/
inductive Object where
  | scalar (s : Scalar)
  | list (items : List Nat)
  | map (entries : List (Scalar × Nat))
  | set (members : List Scalar)
  | pair (first second : Nat)

/-- The date or time that a text gives; a line feed at its very end does not count. -/
def momentOf (text : String) : Except Problem Moment := do
  let cs := text.toList
  let m ← orMisuse .noMember (moment? (if cs.getLast? = some '\n' then cs.dropLast else cs))
  if m.isValid then return m else throw (.misuse .numeral)

/-- The bytes that a text gives, which has to be of ASCII. -/
def bytesOf (text : String) : Except Problem (List UInt8) :=
  if text.toList.all fun c => c.toNat < 128 then orMalformed (Text.base64? text.toList)
  else .error .malformed

def scalarOf (tag : Tag) (text : String) : Except Problem Scalar :=
  match tag with
  | .null => .ok .null
  | .bool => (orMisuse .missingEntry (Tag.truthWords.lookup (Text.lower text))).map .bool
  | .int => ((int text).mapError .misuse).map .int
  | .float => (float text).mapError .misuse
  | .moment => (momentOf text).map .moment
  | .bytes => (bytesOf text).map .bytes
  | .text => .ok (.text text)
  | _ => .error .malformed

namespace Graph

/-- The text that a node gives: its own, or that of what a mapping has under its standard key. The
fuel exceeds the number of nodes, so that it runs out on mappings in a circle only. -/
def textFrom (graph : Graph) : Nat → Nat → Except Problem String
  | 0, _ => .error (.misuse .endless)
  | fuel + 1, number =>
    match (graph.node number).content with
    | .scalar text => .ok text
    | .sequence _ => .error .malformed
    | .mapping entries =>
      match entries.find? fun entry => (graph.node entry.1).tag = .standard with
      | some (_, value) => textFrom graph fuel value
      | none => .error .malformed

def text (graph : Graph) (number : Nat) : Except Problem String :=
  graph.textFrom (graph.size + 1) number

/-- The scalar that a node gives. A date has to be written at the node itself. -/
def scalar (graph : Graph) (number : Nat) : Except Problem Scalar := do
  let node := graph.node number
  if node.tag ∈ [.merge, .standard, .other] then throw .malformed
  let text ← graph.text number
  if node.tag = .moment ∧ node.content ≠ .scalar text then throw (.misuse .wrongKind)
  scalarOf node.tag text

end Graph

/-- How far the objects of nodes are made; `order` holds the collections that are begun. An object
has the number of its node; pairs, which have no node, have the numbers after those. -/
structure Building where
  graph : Graph
  objects : Array (Option Object)
  order : Array Nat := #[]

namespace Building

def object? (building : Building) (number : Nat) : Option Object :=
  (building.objects[number]?).join

def put (building : Building) (number : Nat) (object : Object) : Building :=
  { building with objects := building.objects.setIfInBounds number (some object) }

def empty? : Tag → Option Object
  | .list => some (.list [])
  | .map => some (.map [])
  | .set => some (.set [])
  | .pairs => some (.list [])
  | _ => none

/-- A scalar, of which a number that is none is told apart by its place. -/
def placed (number : Nat) : Scalar → Scalar
  | .float .nan => .nan (number + 1)
  | s => s

/-- Makes the object of a node, which is empty for now if it is a collection. -/
def begin (number : Nat) (building : Building) : Except Problem Building :=
  if (building.object? number).isSome then .ok building
  else
    match empty? (building.graph.node number).tag with
    | some object =>
      .ok { building.put number object with order := building.order.push number }
    | none => do
      return building.put number (.scalar (placed number (← building.graph.scalar number)))

def beginKey (number : Nat) (building : Building) : Except Problem (Scalar × Building) := do
  let building ← building.begin number
  match building.object? number with
  | some (.scalar s) => return (s, building)
  | _ => throw .malformed

/-- Makes the objects of entries; of entries with one key the first gives the place. -/
def beginEntries (before : List (Scalar × Nat)) :
    List (Nat × Nat) → Building → Except Problem (List (Scalar × Nat) × Building)
  | [], building => .ok (before, building)
  | (key, value) :: rest, building => do
    let (k, building) ← building.beginKey key
    let building ← building.begin value
    beginEntries (Entries.put Scalar.same k value before) rest building

def onlyEntry (building : Building) (number : Nat) : Except Problem (Nat × Nat) :=
  match (building.graph.node number).content with
  | .mapping [entry] => .ok entry
  | _ => .error .malformed

def add (object : Object) (building : Building) : Nat × Building :=
  (building.objects.size, { building with objects := building.objects.push (some object) })

/-- Makes the objects of pairs, each of which is written as a mapping. -/
def beginPairs (before : List Nat) : List Nat → Building → Except Problem (List Nat × Building)
  | [], building => .ok (before, building)
  | number :: rest, building => do
    let (first, second) ← building.onlyEntry number
    let building ← building.begin first
    let building ← building.begin second
    let (pair, building) := building.add (.pair first second)
    beginPairs (before ++ [pair]) rest building

def items (building : Building) (number : Nat) : Except Problem (List Nat) :=
  match (building.graph.node number).content with
  | .sequence items => .ok items
  | _ => .error .malformed

def fillEntries (number : Nat) (building : Building) :
    Except Problem (List (Scalar × Nat) × Building) := do
  let graph ← building.graph.flattened number
  beginEntries [] ((graph.entries? number).getD []) { building with graph }

def fill (number : Nat) (building : Building) : Except Problem Building :=
  match (building.graph.node number).tag with
  | .list => do
    let items ← building.items number
    return (← items.foldlM (fun building item => building.begin item) building).put number
      (.list items)
  | .map => do
    let (entries, building) ← building.fillEntries number
    return building.put number (.map entries)
  | .set => do
    let (entries, building) ← building.fillEntries number
    return building.put number (.set (Members.ordered (entries.map Prod.fst)))
  | .pairs => do
    let (items, building) ← beginPairs [] (← building.items number) building
    return building.put number (.list items)
  | _ => .ok building

/-- Fills the collections from the given place of their order on. The fuel exceeds the number of
nodes, none of which is begun twice. -/
def fillFrom : Nat → Nat → Building → Except Problem Building
  | 0, _, building => .ok building
  | fuel + 1, place, building =>
    match building.order[place]? with
    | some number => do fillFrom fuel (place + 1) (← building.fill number)
    | none => .ok building

def ofGraph (graph : Graph) (root : Nat) : Except Problem Building := do
  let building ← begin root { graph, objects := Array.replicate graph.size none }
  fillFrom (graph.size + 1) 0 building

end Building

end ApiBinding.Yaml
