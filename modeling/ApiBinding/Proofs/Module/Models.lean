import ApiBinding.Proofs.Method.Hints
import ApiBinding.Proofs.Module.Layout

/-!
The types that a module declares: each name once, and every name that a hint of the module mentions.
-/

namespace ApiBinding.Module

open Client (Member Built membersOf)

variable {description : Description} {settings : Settings} {before : Option Nat} {text : String}

theorem nodup_names_declared (clients : List Client) :
    ((declared clients).map Declaration.name).Nodup :=
  Entries.nodup_map_firsts Declaration.name _

theorem exists_operation_of_mem_methods {clients : List Client}
    (built : (Client.ofDescription description settings before).result = .ok clients)
    {client : Client} (hc : client ∈ clients) {method : Method} (hm : method ∈ client.methods) :
    ∃ operation ∈ description.operations, operation.toMethod settings = .ok method := by
  obtain ⟨members, taken, built⟩ := Client.built_of_ofDescription built
  rw [built.clients_eq] at hc
  obtain ⟨tag, _, rfl⟩ := List.mem_map.mp hc
  obtain ⟨member, hmember, rfl⟩ := List.mem_map.mp hm
  have hmember : member ∈ members := (List.mem_filter.mp hmember).1
  exact ⟨member.1, built.operations ▸ List.mem_map_of_mem hmember, built.made member hmember⟩

theorem exists_method_of_mem_operations {clients : List Client}
    (built : (Client.ofDescription description settings before).result = .ok clients)
    {operation : Operation} (h : operation ∈ description.operations) :
    ∃ client ∈ clients, ∃ method ∈ client.methods, operation.toMethod settings = .ok method := by
  obtain ⟨members, taken, built⟩ := Client.built_of_ofDescription built
  obtain ⟨client, inside, _, method, given, made⟩ := built.exists_method h
  exact ⟨client, inside, method, given, made⟩

/-- The hints that appear: those of the methods of shown clients and those of declarations. -/
def hints (clients : List Client) : List TypeHint :=
  (shown clients).flatMap (fun client => client.methods.flatMap Method.hints) ++
    (declared clients).flatMap Declaration.hints

variable {clients : List Client} {client : Client} {method : Method} {hint : TypeHint}

theorem mem_hints : hint ∈ hints clients ↔
    (∃ client ∈ shown clients, ∃ method ∈ client.methods, hint ∈ method.hints) ∨
      ∃ declaration ∈ declared clients, hint ∈ declaration.hints := by
  simp only [hints, List.mem_append, List.mem_flatMap]

theorem exists_operation_of_shown
    (built : (Client.ofDescription description settings before).result = .ok clients)
    (hc : client ∈ shown clients) (hm : method ∈ client.methods) :
    ∃ operation ∈ description.operations, operation.toMethod settings = .ok method ∧
      Declaration.collected operation = .ok method.declarations := by
  obtain ⟨operation, ho, made⟩ :=
    exists_operation_of_mem_methods built (List.mem_filter.mp hc).1 hm
  exact ⟨operation, ho, made, Operation.collected_of_toMethod made⟩

theorem made_of_declared
    (built : (Client.ofDescription description settings before).result = .ok clients)
    {d : Declaration} (hd : d ∈ declared clients) :
    Declaration.MadeFrom description.Reaches d := by
  obtain ⟨client, hc, method, hm, hd⟩ := Client.mem_of_mem_allDeclarations hd
  obtain ⟨operation, ho, _, collected⟩ := exists_operation_of_shown built hc hm
  obtain ⟨shape, reached, named, made⟩ := Declaration.made_of_collected collected d hd
  exact ⟨shape, ⟨operation, ho, reached⟩, named, made⟩

/-- All names of declared types that hints mention are declared. -/
theorem declared_of_mem_hints
    (built : (Client.ofDescription description settings before).result = .ok clients)
    (hh : hint ∈ hints clients) :
    ∀ name ∈ hint.modelNames, name ∈ (declared clients).map Declaration.name := by
  intro name hname
  rw [mem_names_declared]
  rcases mem_hints.mp hh with ⟨client, hc, method, hm, hh⟩ | ⟨declaration, hd, hh⟩
  · obtain ⟨operation, _, made, collected⟩ := exists_operation_of_shown built hc hm
    obtain ⟨met, roots, covered⟩ := Declaration.covered_of_collected collected
    have used := Operation.uses_of_mem_hints made hh
    exact ⟨client, hc, method, hm, used.declared covered roots name hname⟩
  · obtain ⟨client, hc, method, hm, hd⟩ := Client.mem_of_mem_allDeclarations hd
    obtain ⟨operation, _, _, collected⟩ := exists_operation_of_shown built hc hm
    obtain ⟨met, _, covered⟩ := Declaration.covered_of_collected collected
    exact ⟨client, hc, method, hm, covered.hints hd hh name hname⟩

/-- Every name that a hint of a shown client or of a declaration mentions is declared, and no name
is declared twice. The declarations stand in front of all clients. -/
theorem models_declared (models : settings.generateModels = true)
    (h : (generate description settings before).result = .ok text) :
    ∃ clients dialect blocks,
      (Client.ofDescription description settings before).result = .ok clients ∧
      settings.dialect = .ok dialect ∧
      List.Forall₂ (fun client lines => client.blocks dialect = .ok lines) clients blocks ∧
      text = Module.text (Header.lines dialect settings.additionalImports
        ++ (declared clients).flatMap Declaration.lines
        ++ blocks.flatten.flatMap (fun block => block ++ ["", ""])
        ++ SupportClass.linesOf (requiredSupport (shown clients))) ∧
      ((declared clients).map Declaration.name).Nodup ∧
      (∀ client ∈ shown clients, ∀ method ∈ client.methods, ∀ hint ∈ method.hints,
        ∀ name ∈ hint.modelNames, name ∈ (declared clients).map Declaration.name) ∧
      ∀ declaration ∈ declared clients, ∀ hint ∈ declaration.hints,
        ∀ name ∈ hint.modelNames, name ∈ (declared clients).map Declaration.name := by
  obtain ⟨clients, dialect, blocks, rendered⟩ := rendered_of_generate h
  refine ⟨clients, dialect, blocks, rendered.built, rendered.versioned, rendered.blocked, ?_,
    nodup_names_declared clients, ?_, ?_⟩
  · rw [rendered.text, layout, if_pos models]
  · intro client hc method hm hint hh
    exact declared_of_mem_hints rendered.built (mem_hints.mpr (.inl ⟨client, hc, method, hm, hh⟩))
  · intro declaration hd hint hh
    exact declared_of_mem_hints rendered.built (mem_hints.mpr (.inr ⟨declaration, hd, hh⟩))

/-- A shape of which only the name is known. -/
def bareItem : Shape := .object (some "Item") [] none false

def order : Shape := .object (some "Order") [{ name := .text "item", type := bareItem }] none false

def item : Shape := .object (some "Item") [{ name := .text "order", type := order }] none false

theorem item_and_order_declared :
    ∃ clients, (Client.ofDescription
        { operations := [.answering "First" "GetItem" [("200", item)]] } .standard).result =
          .ok clients ∧
      ((declared clients).map Declaration.name).Nodup ∧
      ∀ declaration ∈ declared clients, ∀ hint ∈ declaration.hints,
        ∀ name ∈ hint.modelNames, name ∈ (declared clients).map Declaration.name := by
  obtain ⟨description, hd⟩ : ∃ description : Description, description =
    { operations := [.answering "First" "GetItem" [("200", item)]] } := ⟨_, rfl⟩
  obtain ⟨text, h⟩ : ∃ text, (generate description .standard).result = .ok text :=
    exists_eq_ok (by rw [hd]; decide +kernel)
  obtain ⟨clients, _, _, built, _, _, _, distinct, _, closed⟩ := models_declared rfl h
  exact ⟨clients, hd ▸ built, distinct, closed⟩

end ApiBinding.Module
