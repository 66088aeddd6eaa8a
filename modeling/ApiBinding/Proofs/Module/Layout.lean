import ApiBinding.Module
import ApiBinding.Proofs.Client.Grouping

/-!
The lines of a module: which clients are shown, which types are declared for them, and in which
order the parts follow each other.
-/

namespace ApiBinding.Module

/-- The clients of which some part appears. -/
def shown (clients : List Client) : List Client := clients.filter Client.isShown

/-- The declarations that appear. -/
def declared (clients : List Client) : List Declaration := Client.allDeclarations (shown clients)

def layout (clients : List Client) (settings : Settings) (dialect : Dialect)
    (blocks : List (List String)) : List String :=
  Header.lines dialect settings.additionalImports
    ++ (if settings.generateModels then (declared clients).flatMap Declaration.lines else [])
    ++ blocks.flatMap (fun block => block ++ ["", ""])
    ++ SupportClass.linesOf (requiredSupport (shown clients))

/-- What the text of a module is made of: its clients, and for each of them its blocks. -/
structure Rendered (description : Description) (settings : Settings) (before : Option Nat)
    (text : String) (clients : List Client) (dialect : Dialect)
    (blocks : List (List (List String))) : Prop where
  built : (Client.ofDescription description settings before).result = .ok clients
  versioned : settings.dialect = .ok dialect
  blocked : List.Forall₂ (fun client lines => client.blocks dialect = .ok lines) clients blocks
  text : text = Module.text (layout clients settings dialect blocks.flatten)

variable {description : Description} {settings : Settings} {before : Option Nat} {text : String}

theorem rendered_of_generate (h : (generate description settings before).result = .ok text) :
    ∃ clients dialect blocks,
      Rendered description settings before text clients dialect blocks := by
  obtain ⟨clients, built, h⟩ := bind_eq_ok.mp h
  unfold render parts at h
  simp only [bind_assoc] at h
  obtain ⟨dialect, versioned, h⟩ := bind_eq_ok.mp h
  obtain ⟨blocks, hblocks, h⟩ := bind_eq_ok.mp h
  refine ⟨clients, dialect, blocks, built, versioned, mapM_eq_ok.mp hblocks, ?_⟩
  simp only [pure_eq_ok, ok_bind, Except.ok.injEq] at h
  refine h.symm.trans (congrArg Module.text ?_)
  simp only [layout, declared, shown, Parts.lines]

theorem mem_names_declared {clients : List Client} {name : String} :
    name ∈ (declared clients).map Declaration.name ↔
      ∃ client ∈ shown clients, ∃ method ∈ client.methods,
        name ∈ method.declarations.map Declaration.name := by
  have all : name ∈ (declared clients).map Declaration.name ↔
      name ∈ ((shown clients).flatMap Client.declarations).map Declaration.name :=
    Entries.key_mem_map_firsts Declaration.name
  have each (client : Client) : name ∈ client.declarations.map Declaration.name ↔
      name ∈ (client.methods.flatMap Method.declarations).map Declaration.name :=
    Entries.key_mem_map_firsts Declaration.name
  rw [all, List.map_flatMap, List.mem_flatMap]
  simp only [each, List.map_flatMap, List.mem_flatMap]

/-- What is declared under a name is what the first method declares that declares the name. -/
theorem mem_declared {clients : List Client} {d : Declaration} :
    d ∈ declared clients ↔
      ((shown clients).flatMap Client.methods).findSome?
        (fun method => Declaration.find? method.declarations d.name) = some d := by
  have all : d ∈ declared clients ↔
      ((shown clients).flatMap Client.declarations).find? (·.name == d.name) = some d :=
    Entries.mem_firsts Declaration.name
  have each : ((shown clients).flatMap Client.declarations).find? (·.name == d.name) =
      ((shown clients).flatMap fun client => client.methods.flatMap Method.declarations).find?
        (·.name == d.name) :=
    Entries.find?_flatMap_firsts Declaration.name d.name _ _
  rw [all, each, ← List.flatMap_assoc, List.find?_flatMap]
  rfl

end ApiBinding.Module
