import ApiBinding.Yaml.Node

/-!
Mappings that bring in the entries of others. A merge key gives way to the entries of the mappings
under it, which come before the entries that are written; of several mappings the last comes first.
-/

namespace ApiBinding.Yaml.Graph

def entries? (graph : Graph) (number : Nat) : Option (List (Nat × Nat)) :=
  match (graph.node number).content with
  | .mapping entries => some entries
  | _ => none

def sources (graph : Graph) (number : Nat) : List Nat :=
  match (graph.node number).content with
  | .sequence items => items
  | _ => [number]

def splitMerge? (graph : Graph) : List (Nat × Nat) → Option (Nat × List (Nat × Nat))
  | [] => none
  | (key, value) :: rest =>
    if (graph.node key).tag = .merge then some (value, rest)
    else (splitMerge? graph rest).map fun (merged, others) => (merged, (key, value) :: others)

/-- The nodes, of which a standard key counts as a text. -/
def asTextKey (graph : Graph) (number : Nat) : Graph :=
  if (graph.node number).tag = .standard then
    graph.modify number fun node => { node with tag := .text }
  else graph

/-- Writes out what merge keys bring into a mapping, in addition to what others before them have
brought in. A merge key is taken away before it is followed, so that the fuel need not exceed the
number of entries. -/
def flatten : Nat → List (Nat × Nat) → Nat → Graph → Except Problem Graph
  | 0, _, _, _ => .error .malformed
  | fuel + 1, merged, number, graph => do
    let entries ← orMalformed (graph.entries? number)
    match graph.splitMerge? entries with
    | none =>
      let graph := graph.setContent number (.mapping (merged ++ entries))
      return (merged ++ entries).foldl (fun graph entry => graph.asTextKey entry.1) graph
    | some (value, others) =>
      let graph := graph.setContent number (.mapping others)
      let step (state : List (Nat × Nat) × Graph) (source : Nat) :
          Except Problem (List (Nat × Nat) × Graph) := do
        let graph ← flatten fuel [] source state.2
        return ((graph.entries? source).getD [] ++ state.1, graph)
      let (more, graph) ← (graph.sources value).foldlM step ([], graph)
      flatten fuel (merged ++ more) number graph

def entryCount (graph : Graph) : Nat :=
  graph.foldl (fun count node => match node.content with
    | .mapping entries => count + entries.length
    | _ => count) 0

/-- The nodes after what merge keys bring into a mapping is written out. Without such keys there is
nothing to write. -/
def flattened (graph : Graph) (number : Nat) : Except Problem Graph := do
  let entries ← orMalformed (graph.entries? number)
  if (graph.splitMerge? entries).isSome then graph.flatten (graph.entryCount + 2) [] number
  else return entries.foldl (fun graph entry => graph.asTextKey entry.1) graph

end ApiBinding.Yaml.Graph
