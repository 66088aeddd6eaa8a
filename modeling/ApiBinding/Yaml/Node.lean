import ApiBinding.Yaml.Tag
import ApiBinding.Yaml.Token

/-!
The nodes of a text. They are known by numbers, because a node may stand in several places, even
inside itself; one that is referred to by its name is the same node.
-/

namespace ApiBinding.Yaml

/-- What a node holds: a text, or other nodes by their numbers. -/
inductive Content where
  | scalar (text : String)
  | sequence (items : List Nat)
  | mapping (entries : List (Nat × Nat))
deriving DecidableEq

structure Node where
  tag : Tag
  content : Content
deriving DecidableEq

def Node.empty : Node := ⟨.null, .scalar ""⟩

abbrev Graph := Array Node

def Graph.node (graph : Graph) (number : Nat) : Node := (graph[number]?).getD Node.empty

def Graph.setContent (graph : Graph) (number : Nat) (content : Content) : Graph :=
  graph.modify number fun node => { node with content }

namespace Node

/-- The tokens that are left, what the handles of tags stand for, the nodes so far and the numbers
of those with names. -/
structure Reading where
  tokens : List Token
  handles : List (String × String) := [("!", "!"), ("!!", "tag:yaml.org,2002:")]
  graph : Graph := #[]
  named : List (String × Nat) := []

/-- Reads from tokens, or fails where they are in no order or end with a fault. -/
abbrev Reader := StateT Reading (Except Problem)

def malformed {α : Type} : Reader α := throw .malformed

/-- The next token; at the end it is the end of the stream. -/
def next : Reader Token := do
  match (← get).tokens with
  | .fault problem :: _ => throw problem
  | token :: _ => return token
  | [] => return .streamEnd

def take : Reader Token := do
  let token ← next
  modify fun reading => { reading with tokens := reading.tokens.tail }
  return token

/-- Takes the token away if it is the next one, and tells whether it was. -/
def takes (token : Token) : Reader Bool := do
  if (← next) = token then
    let _ ← take
    return true
  else return false

def expect (token : Token) : Reader Unit := do
  if !(← takes token) then malformed

/-- Adds a node, under a name that no other node has if it has one, and gives its number. -/
def add (name : Option String) (node : Node) : Reader Nat := do
  let number := (← get).graph.size
  modify fun reading => { reading with graph := reading.graph.push node }
  if let some name := name then
    if ((← get).named.lookup name).isSome then malformed
    modify fun reading => { reading with named := (name, number) :: reading.named }
  return number

def addEmpty : Reader Nat := add none empty

def addBare (name tag : Option String) : Reader Nat := do
  if name.isSome || tag.isSome then add name ⟨Tag.ofScalar tag "" true, .scalar ""⟩ else malformed

/-- Adds a collection and then reads what it holds, where it may be referred to already. -/
def addCollection (name tag : Option String) (usual : Tag) (read : Reader Content) :
    Reader Nat := do
  let number ← add name ⟨Tag.ofCollection usual tag, .sequence []⟩
  let content ← read
  modify fun reading => { reading with graph := reading.graph.setContent number content }
  return number

/-- Reads a node, or an empty one if one of the given tokens is next. -/
def orEmpty (ends : List Token) (read : Reader Nat) : Reader Nat := do
  if ends.contains (← next) then addEmpty else read

/-- Reads the node after the mark of a value, or an empty one where the mark is missing. -/
def valueOrEmpty (ends : List Token) (read : Reader Nat) : Reader Nat := do
  if ← takes .value then orEmpty ends read else addEmpty

def anchor? : Reader (Option String) := do
  match ← next with
  | .anchor name =>
    let _ ← take
    return some name
  | _ => return none

/-- The tag that is next, written out in full. -/
def tag? : Reader (Option String) := do
  match ← next with
  | .tag handle suffix =>
    let _ ← take
    match handle with
    | none => return some suffix
    | some handle =>
      let some lead := (← get).handles.lookup handle | malformed
      return some (lead ++ suffix)
  | _ => return none

def properties : Reader (Option String × Option String) := do
  match ← anchor? with
  | some name => return (some name, ← tag?)
  | none =>
    let tag ← tag?
    if tag.isSome then return (← anchor?, tag) else return (none, none)

mutual

/-- Reads a node. A sequence as the value of an entry need not be indented; `entry` says whether
that is so here. The fuel bounds the depth of the recursion. -/
def read : Nat → Bool → Reader Nat
  | 0, _ => malformed
  | fuel + 1, entry => do
    match ← next with
    | .reference name =>
      let _ ← take
      let some number := (← get).named.lookup name | malformed
      return number
    | _ =>
      let (name, tag) ← properties
      afterProperties fuel entry name tag

/-- Reads a node after its properties; if it has some it may be empty. -/
def afterProperties : Nat → Bool → Option String → Option String → Reader Nat
  | 0, _, _, _ => malformed
  | fuel + 1, entry, name, tag => do
    match ← next with
    | .blockEntry =>
      if entry then addCollection name tag .list (.sequence <$> looseItems fuel)
      else addBare name tag
    | .scalar text plain =>
      let _ ← take
      add name ⟨Tag.ofScalar tag text plain, .scalar text⟩
    | .flowSequenceStart =>
      let _ ← take
      addCollection name tag .list (.sequence <$> flowItems fuel true)
    | .flowMappingStart =>
      let _ ← take
      addCollection name tag .map (.mapping <$> flowEntries fuel true)
    | .blockSequenceStart =>
      let _ ← take
      addCollection name tag .list (.sequence <$> blockItems fuel)
    | .blockMappingStart =>
      let _ ← take
      addCollection name tag .map (.mapping <$> blockEntries fuel)
    | _ => addBare name tag

def blockItems : Nat → Reader (List Nat)
  | 0 => malformed
  | fuel + 1 => do
    match ← take with
    | .blockEntry =>
      let item ← orEmpty [.blockEntry, .blockEnd] (read fuel false)
      return item :: (← blockItems fuel)
    | .blockEnd => return []
    | _ => malformed

/-- Reads the items of a sequence that is not indented. -/
def looseItems : Nat → Reader (List Nat)
  | 0 => malformed
  | fuel + 1 => do
    if ← takes .blockEntry then
      let item ← orEmpty [.blockEntry, .key, .value, .blockEnd] (read fuel false)
      return item :: (← looseItems fuel)
    else return []

def blockEntries : Nat → Reader (List (Nat × Nat))
  | 0 => malformed
  | fuel + 1 => do
    match ← take with
    | .key =>
      let ends := [.key, .value, .blockEnd]
      let key ← orEmpty ends (read fuel true)
      let value ← valueOrEmpty ends (read fuel true)
      return (key, value) :: (← blockEntries fuel)
    | .blockEnd => return []
    | _ => malformed

/-- Reads the items of a sequence in brackets; one entry of a mapping may stand for itself. -/
def flowItems : Nat → Bool → Reader (List Nat)
  | 0, _ => malformed
  | fuel + 1, first => do
    if ← takes .flowSequenceEnd then return []
    if !first then expect .flowEntry
    if ← takes .flowSequenceEnd then return []
    let item ←
      if ← takes .key then
        addCollection none none .map (.mapping <$> flowEntry fuel .flowSequenceEnd)
      else read fuel false
    return item :: (← flowItems fuel false)

def flowEntry : Nat → Token → Reader (List (Nat × Nat))
  | 0, _ => malformed
  | fuel + 1, last => do
    let ends := [.flowEntry, last]
    let key ← orEmpty (.value :: ends) (read fuel false)
    let value ← valueOrEmpty ends (read fuel false)
    return [(key, value)]

/-- Reads the entries of a mapping in braces; a key may stand alone. -/
def flowEntries : Nat → Bool → Reader (List (Nat × Nat))
  | 0, _ => malformed
  | fuel + 1, first => do
    if ← takes .flowMappingEnd then return []
    if !first then expect .flowEntry
    if ← takes .flowMappingEnd then return []
    let entry ←
      if ← takes .key then flowEntry fuel .flowMappingEnd
      else do
        let key ← read fuel false
        pure [(key, ← addEmpty)]
    return entry ++ (← flowEntries fuel false)

end

def directives : Nat → Bool → List (String × String) → Reader (List (String × String))
  | 0, _, _ => malformed
  | fuel + 1, versioned, handles => do
    match ← next with
    | .versionDirective major =>
      if versioned ∨ major ≠ 1 then malformed
      let _ ← take
      directives fuel true handles
    | .tagDirective handle lead =>
      if (handles.lookup handle).isSome then malformed
      let _ ← take
      directives fuel versioned ((handle, lead) :: handles)
    | .otherDirective =>
      let _ ← take
      directives fuel versioned handles
    | _ => return handles

def marked (fuel : Nat) : Reader Nat := do
  let handles ← directives fuel false []
  modify fun reading => { reading with handles := handles ++ reading.handles }
  expect .documentStart
  match ← next with
  | .versionDirective _ | .tagDirective .. | .otherDirective | .documentStart | .documentEnd
  | .streamEnd => addEmpty
  | _ => read fuel false

/-- Reads the only document of a stream, or none of an empty one. -/
def document (fuel : Nat) : Reader (Option Nat) := do
  match ← next with
  | .streamEnd => return none
  | .versionDirective _ | .tagDirective .. | .otherDirective | .documentStart =>
    return some (← marked fuel)
  | _ => return some (← read fuel false)

def problemAfter : List Token → Problem
  | .versionDirective _ :: tokens | .tagDirective .. :: tokens | .otherDirective :: tokens =>
    problemAfter tokens
  | .fault problem :: _ => problem
  | _ => .malformed

def rest : List Token → Except Problem Unit
  | [] => .ok ()
  | .documentEnd :: tokens | .streamEnd :: tokens => rest tokens
  | tokens => .error (problemAfter tokens)

/-- The nodes that the tokens of a stream give, and the number of the outermost one if there is
one. -/
def ofTokens (tokens : List Token) : Except Problem (Graph × Option Nat) := do
  let (root, reading) ← (document (4 * tokens.length + 4)).run { tokens }
  rest reading.tokens
  return (reading.graph, root)

end Node

end ApiBinding.Yaml
