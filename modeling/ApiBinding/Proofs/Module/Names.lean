import ApiBinding.Proofs.Client.Partition
import ApiBinding.Proofs.Code.Import
import ApiBinding.Proofs.Module.Support

/-!
The names that a module binds at the left margin: those of its head, of the declared types, of the
clients and of the support classes. A declared type can have the name of a class only where its
schema is called what the class is noted for.
-/

namespace ApiBinding

open Code (bound)

namespace Identifier

/-- Whether no name of a type can be the given one: it is forbidden or does not start with a
capital. -/
def isShielded (name : String) : Bool :=
  !name.toList.head?.any Char.isUpper || isForbidden .type name

theorem ofRaw_ne_of_isShielded {name : String} (h : isShielded name = true) (raw : String) :
    ofRaw .type raw ≠ name := by
  rintro rfl
  simp [isShielded, isForbidden_ofRaw, head_type] at h

end Identifier

namespace Client

/-- Whether no interface can have the given name: nothing stands in front of the ending. -/
def isNoInterface (name : String) : Bool :=
  name == interfaceEnding || !interfaceEnding.toList.isSuffixOf name.toList

theorem interface_ne {name : String} (h : isNoInterface name = true) (raw : String) :
    Identifier.ofRaw .type raw ++ interfaceEnding ≠ name := by
  rintro rfl
  rw [isNoInterface, Bool.or_eq_true, beq_iff_eq] at h
  rcases h with same | other
  · exact Identifier.ofRaw_ne_empty .type raw (by simpa using same)
  · have ends : interfaceEnding.toList.isSuffixOf
        (Identifier.ofRaw .type raw ++ interfaceEnding).toList = true := by simp
    rw [ends] at other
    cases other

/-- The names under which the client appears in a module. -/
def shownNames (client : Client) : List String :=
  (if client.showsInterface then [client.interfaceName] else [])
    ++ (if client.showsClass then [client.className] else [])

theorem shownNames_subset (client : Client) :
    client.shownNames ⊆ [client.className, client.interfaceName] := by
  intro name member
  rcases List.mem_append.mp member with member | member
  · split at member <;> simp_all
  · split at member <;> simp_all

theorem bound_blocks {client : Client} {settings : Settings} {tag : String} {methods : List Method}
    (made : client = ofGroup settings tag methods) {dialect : Dialect}
    {blocks : List (List String)} (h : client.blocks dialect = .ok blocks) :
    blocks.flatMap (fun block => block.flatMap bound) = client.shownNames := by
  obtain ⟨className, interfaceName⟩ := Code.isWord_clientNames settings tag methods
  rw [← made] at className interfaceName
  have interfaceBuilt : client.showsInterface = true → client.buildsInterface = true := by
    rw [made]
    simp +contextual [ofGroup]
  have classBuilt : client.showsClass = true → client.buildsClass = true := by
    rw [made]
    simp +contextual [ofGroup]
  rw [Code.blocks_eq] at h
  obtain ⟨interfaces, interfaced, h⟩ := bind_eq_ok.mp h
  obtain ⟨classes, classed, h⟩ := bind_eq_ok.mp h
  cases h
  rw [shownNames, List.flatMap_append]
  congr 1
  · split
    next shows =>
      rw [Code.builtPart, if_pos (interfaceBuilt shows)] at interfaced
      obtain ⟨lines, written, rfl⟩ := map_eq_ok.mp interfaced
      rw [List.flatMap_singleton, (Code.declares_interface interfaceName written).bound]
    next => rfl
  · split
    next shows =>
      rw [Code.builtPart, if_pos (classBuilt shows)] at classed
      obtain ⟨lines, written, rfl⟩ := map_eq_ok.mp classed
      rw [List.flatMap_singleton, (Code.declares_class className written).bound]
    next => rfl

end Client

namespace Header

theorem reserved_of_bound (dialect : Dialect) : ∀ name ∈ boundNames dialect,
    Identifier.isShielded name = true ∧ Client.isNoInterface name = true := by
  have all : ∀ name ∈ "annotations" :: Identifier.topNames,
      Identifier.isShielded name = true ∧ Client.isNoInterface name = true := by decide +kernel
  intro name member
  exact all name (List.mem_cons.mpr (mem_topNames_of_bound dialect name member))

theorem not_mem_support_of_bound (dialect : Dialect) : ∀ name ∈ boundNames dialect,
    name ∉ SupportClass.all.map SupportClass.name := by
  have all : ∀ name ∈ "annotations" :: Identifier.topNames,
      name ∉ SupportClass.all.map SupportClass.name := by decide
  intro name member
  exact all name (List.mem_cons.mpr (mem_topNames_of_bound dialect name member))

end Header

namespace SupportClass

theorem bound_linesOf (required : List SupportClass) :
    (linesOf required).flatMap bound = (all.filter (isRequired required)).map name := by
  rw [linesOf, List.flatMap_assoc, List.map_eq_flatMap]
  exact List.flatMap_congr fun support _ => (declares support).bound

theorem nodup_bound_linesOf (required : List SupportClass) :
    ((linesOf required).flatMap bound).Nodup := by
  rw [bound_linesOf]
  exact (nodup_all.filter _).map name_injective

end SupportClass

namespace Module

variable {description : Description} {settings : Settings} {before : Option Nat} {text : String}
  {clients : List Client}

theorem bound_spaced (blocks : List (List String)) :
    (blocks.flatMap fun block => block ++ ["", ""]).flatMap bound =
      blocks.flatMap fun block => block.flatMap bound := by
  have blank : ["", ""].flatMap bound = [] := by decide
  rw [List.flatMap_assoc]
  exact List.flatMap_congr fun block _ => by rw [List.flatMap_append, blank, List.append_nil]

theorem bound_clients
    (built : (Client.ofDescription description settings before).result = .ok clients)
    {dialect : Dialect} {blocks : List (List (List String))}
    (blocked : List.Forall₂ (fun client lines => client.blocks dialect = .ok lines)
      clients blocks) :
    (blocks.flatten.flatMap fun block => block ++ ["", ""]).flatMap bound =
      clients.flatMap Client.shownNames := by
  rw [bound_spaced]
  have made {client : Client} (h : client ∈ clients) := exists_ofGroup built h
  clear built
  induction blocked with
  | nil => rfl
  | cons written _ ih =>
    obtain ⟨tag, methods, here⟩ := made List.mem_cons_self
    rw [List.flatten_cons, List.flatMap_append, List.flatMap_cons,
      Client.bound_blocks here written, ih fun h => made (List.mem_cons_of_mem _ h)]

theorem bound_declared
    (built : (Client.ofDescription description settings before).result = .ok clients) :
    ((declared clients).flatMap Declaration.lines).flatMap bound =
      (declared clients).map Declaration.name := by
  rw [List.flatMap_assoc, List.map_eq_flatMap]
  refine List.flatMap_congr fun declaration member => ?_
  obtain ⟨raw, named⟩ := exists_name_of_declared built member
  exact (Code.declares_type named).bound

/-- All clients of a description appear or none does. -/
theorem shown_cases
    (built : (Client.ofDescription description settings before).result = .ok clients) :
    shown clients = clients ∨ shown clients = [] := by
  have same {client : Client} (h : client ∈ clients) : client.isShown =
      (settings.generateInterfaces && !settings.suppressInterfaces
        || settings.generateClasses && !settings.suppressClasses) := by
    obtain ⟨tag, methods, rfl⟩ := exists_ofGroup built h
    exact Client.ofGroup_isShown settings tag methods
  cases flag : settings.generateInterfaces && !settings.suppressInterfaces
      || settings.generateClasses && !settings.suppressClasses with
  | true => exact .inl (List.filter_eq_self.mpr fun client h => (same h).trans flag)
  | false => exact .inr (List.filter_eq_nil_iff.mpr fun client h => by simp [same h, flag])

theorem mem_allDeclarations_of_declared
    (built : (Client.ofDescription description settings before).result = .ok clients)
    {declaration : Declaration} (h : declaration ∈ declared clients) :
    declaration ∈ Client.allDeclarations clients := by
  rcases shown_cases built with all | none
  · rwa [declared, all] at h
  · rw [declared, none] at h
    cases h

theorem goesBy_of_shownNames
    (built : (Client.ofDescription description settings before).result = .ok clients)
    {client : Client} (h : client ∈ clients) {name : String} (shown : name ∈ client.shownNames) :
    ∃ operation ∈ description.operations, operation.tag = client.tag ∧
      Client.GoesBy settings operation.tag name := by
  obtain ⟨members, taken, built⟩ := Client.built_of_ofDescription built
  have one := client.shownNames_subset shown
  rw [built.clients_eq] at h
  obtain ⟨tag, member, rfl⟩ := List.mem_map.mp h
  obtain ⟨operation, ho, rfl⟩ := Client.mem_tags.mp member
  exact ⟨operation, ho, rfl, by simpa [Client.GoesBy] using one⟩

/-- A declared type with a name of a client comes from a schema that is called what the client is
noted for. -/
theorem source_eq_label (models : settings.generateModels = true)
    (built : (Client.ofDescription description settings before).result = .ok clients)
    {client : Client} (h : client ∈ clients) {declaration : Declaration}
    (hd : declaration ∈ declared clients) (shown : declaration.name ∈ client.shownNames) :
    declaration.source = Client.label client.tag := by
  obtain ⟨operation, ho, tag, goes⟩ := goesBy_of_shownNames built h shown
  have hd := mem_allDeclarations_of_declared built hd
  obtain ⟨members, taken, built⟩ := Client.built_of_ofDescription built
  have present := (built.entered ho).2 _ goes
  rw [← tag]
  exact (NameTable.eq_of_enterAll (built.checked models) (List.mem_map_of_mem hd) present).symm

theorem nodup_shownNames
    (regular : ∀ operation ∈ description.operations, Text.IsRegular operation.tag)
    (built : (Client.ofDescription description settings before).result = .ok clients) :
    (clients.flatMap Client.shownNames).Nodup := by
  obtain ⟨members, taken, built⟩ := Client.built_of_ofDescription built
  obtain ⟨each, apart⟩ := List.nodup_flatMap.mp (built.nodup_clientNames regular)
  refine List.nodup_flatMap.mpr ⟨fun client h => ?_, apart.imp fun disjoint name first second => ?_⟩
  · have differ : client.interfaceName ≠ client.className := by
      have pair := each client h
      simpa [eq_comm] using pair
    unfold Client.shownNames
    split <;> split <;> simp [differ]
  · exact disjoint (Client.shownNames_subset _ first) (Client.shownNames_subset _ second)

/-- Whether a name is made for a type, or for an interface. -/
def IsMade (name : String) : Prop :=
  ∃ raw, name = Identifier.ofRaw .type raw ∨
    name = Identifier.ofRaw .type raw ++ Client.interfaceEnding

theorem IsMade.not_mem_boundNames {name : String} (h : IsMade name) (dialect : Dialect) :
    name ∉ Header.boundNames dialect := by
  intro member
  obtain ⟨shielded, ending⟩ := Header.reserved_of_bound dialect name member
  obtain ⟨raw, rfl | rfl⟩ := h
  · exact Identifier.ofRaw_ne_of_isShielded shielded raw rfl
  · exact Client.interface_ne ending raw rfl

theorem IsMade.ne_support {name : String} (h : IsMade name) (support : SupportClass) :
    name ≠ support.name := by
  obtain ⟨raw, rfl | rfl⟩ := h
  · exact Module.ne_support (Code.allows_type raw) support
  · exact Module.ne_support (Code.allows_interface raw) support

theorem isMade_of_declared
    (built : (Client.ofDescription description settings before).result = .ok clients)
    {name : String} (h : name ∈ (declared clients).map Declaration.name) : IsMade name := by
  obtain ⟨declaration, member, rfl⟩ := List.mem_map.mp h
  obtain ⟨raw, named⟩ := exists_name_of_declared built member
  exact ⟨raw, .inl named⟩

theorem isMade_of_shownNames
    (built : (Client.ofDescription description settings before).result = .ok clients)
    {name : String} (h : name ∈ clients.flatMap Client.shownNames) : IsMade name := by
  obtain ⟨client, member, shown⟩ := List.mem_flatMap.mp h
  obtain ⟨operation, _, _, goes⟩ := goesBy_of_shownNames built member shown
  obtain ⟨raw, same⟩ := Code.exists_clientName settings operation.tag
  exact ⟨raw, by rwa [Client.GoesBy, same] at goes⟩

/-- The names that a module without additional imports binds are different from each other, unless a
schema is called what one of the clients is noted for and its type gets the name of that client. As
clients are noted with the literals of their tags, a tag is written in the one way its codes give. -/
theorem names_bound_once (models : settings.generateModels = true)
    (regular : ∀ operation ∈ description.operations, Text.IsRegular operation.tag)
    (h : (generate description settings before).result = .ok text) :
    ∃ clients dialect blocks,
      (Client.ofDescription description settings before).result = .ok clients ∧
      settings.dialect = .ok dialect ∧
      List.Forall₂ (fun client lines => client.blocks dialect = .ok lines) clients blocks ∧
      text = Module.text (Header.lines dialect settings.additionalImports
        ++ (declared clients).flatMap Declaration.lines
        ++ blocks.flatten.flatMap (fun block => block ++ ["", ""])
        ++ SupportClass.linesOf (requiredSupport (shown clients))) ∧
      (((Header.lines dialect []
          ++ (declared clients).flatMap Declaration.lines
          ++ blocks.flatten.flatMap (fun block => block ++ ["", ""])
          ++ SupportClass.linesOf (requiredSupport (shown clients))).flatMap bound).Nodup ↔
        ∀ client ∈ clients, ∀ declaration ∈ declared clients,
          declaration.source = Client.label client.tag →
            declaration.name ∉ client.shownNames) := by
  obtain ⟨clients, dialect, blocks, rendered⟩ := rendered_of_generate h
  have built := rendered.built
  refine ⟨clients, dialect, blocks, built, rendered.versioned, rendered.blocked, ?_, ?_⟩
  · rw [rendered.text, layout, if_pos models]
  have head := Header.bound_lines dialect
  have noHead {name : String} (made : IsMade name) :
      name ∉ (Header.lines dialect []).flatMap bound := fun member =>
    made.not_mem_boundNames dialect (head.mem_iff.mp member)
  have noSupport {name : String} (made : IsMade name) (required : List SupportClass) :
      name ∉ (SupportClass.linesOf required).flatMap bound := by
    rw [SupportClass.bound_linesOf]
    intro member
    obtain ⟨support, _, same⟩ := List.mem_map.mp member
    exact made.ne_support support same.symm
  -- Only the names of declared types and those of clients can meet.
  have apart : List.Disjoint ((declared clients).map Declaration.name)
      (clients.flatMap Client.shownNames) ↔ ∀ client ∈ clients, ∀ declaration ∈ declared clients,
        declaration.source = Client.label client.tag → declaration.name ∉ client.shownNames := by
    constructor
    · intro disjoint client hc declaration hd _ shown
      exact disjoint (List.mem_map_of_mem hd) (List.mem_flatMap.mpr ⟨client, hc, shown⟩)
    · intro different name first second
      obtain ⟨declaration, hd, rfl⟩ := List.mem_map.mp first
      obtain ⟨client, hc, shown⟩ := List.mem_flatMap.mp second
      exact different client hc declaration hd (source_eq_label models built hc hd shown) shown
  rw [← apart]
  simp only [List.flatMap_append, bound_declared built, bound_clients built rendered.blocked,
    List.nodup_append', List.disjoint_append_left]
  constructor
  · rintro ⟨⟨_, _, _, disjoint⟩, _⟩
    exact disjoint
  · intro disjoint
    have inHead := head.nodup_iff.mpr (Header.nodup_boundNames dialect)
    refine ⟨⟨⟨inHead, nodup_names_declared clients, ?_⟩, nodup_shownNames regular built, ?_,
      disjoint⟩, SupportClass.nodup_bound_linesOf _, ⟨?_, ?_⟩, ?_⟩
    · exact fun name first second => noHead (isMade_of_declared built second) first
    · exact fun name first second => noHead (isMade_of_shownNames built second) first
    · intro name first second
      rw [SupportClass.bound_linesOf] at second
      exact Header.not_mem_support_of_bound dialect name (head.mem_iff.mp first)
        ((List.filter_sublist.map SupportClass.name).subset second)
    · exact fun name first second => noSupport (isMade_of_declared built first) _ second
    · exact fun name first second => noSupport (isMade_of_shownNames built first) _ second

/-- Settings that put the tag behind a word of its own. -/
def namedClientFirst : Settings :=
  { Settings.standard with classNameTemplate := "Client\x7btag\x7d" }

def answeringRecord (tag name : String) : Description where
  operations := [.answering tag "Find" [("200",
    .object (some name) [{ name := .text "id", type := .primitive .integer false }] none false)]]

theorem names_bound_once_beside_pet :
    ∃ clients dialect blocks,
      (Client.ofDescription (answeringRecord "Pet" "Pet") namedClientFirst).result = .ok clients ∧
      List.Forall₂ (fun client lines => client.blocks dialect = .ok lines) clients blocks ∧
      ((Header.lines dialect []
        ++ (declared clients).flatMap Declaration.lines
        ++ blocks.flatten.flatMap (fun block => block ++ ["", ""])
        ++ SupportClass.linesOf (requiredSupport (shown clients))).flatMap bound).Nodup := by
  obtain ⟨description, hd⟩ : ∃ description, description = answeringRecord "Pet" "Pet" := ⟨_, rfl⟩
  have written : (generate description namedClientFirst).result.isOk = true := by
    rw [hd]
    decide +kernel
  have different : (Client.ofDescription description namedClientFirst).result.toOption.all
      (fun clients => clients.all fun client => (declared clients).all fun declaration =>
        declaration.source != Client.label client.tag) = true := by
    rw [hd]
    decide +kernel
  have regular : ∀ operation ∈ description.operations, Text.IsRegular operation.tag := by
    rw [hd]
    decide +kernel
  obtain ⟨text, h⟩ := exists_eq_ok written
  obtain ⟨clients, dialect, blocks, built, _, blocked, _, once⟩ := names_bound_once rfl regular h
  refine ⟨clients, dialect, blocks, hd ▸ built, blocked, once.mpr ?_⟩
  rw [built] at different
  simp only [Except.toOption, Option.all_some, List.all_eq_true, bne_iff_ne] at different
  exact fun client hc declaration hd same => absurd same (different client hc declaration hd)

/-- The record of a schema called `client 'Pet'` takes the name of the class for the tag Pet. -/
theorem class_name_bound_twice :
    namedClientFirst.checked = .ok namedClientFirst ∧
      ∃ made : Parts, (generate (answeringRecord "Pet" "client 'Pet'") namedClientFirst).result =
          .ok (Module.text made.lines) ∧
        namedClientFirst.additionalImports = [] ∧ ¬(made.lines.flatMap bound).Nodup := by
  obtain ⟨description, hd⟩ : ∃ description, description = answeringRecord "Pet" "client 'Pet'" :=
    ⟨_, rfl⟩
  obtain ⟨made, hmade⟩ : ∃ made, partsOf description namedClientFirst = .ok made :=
    exists_eq_ok (by rw [hd]; decide +kernel)
  have both : (partsOf description namedClientFirst).toOption.all (fun made =>
      (made.declarations.flatMap bound).contains "ClientPet" &&
        (made.clients.flatMap fun block => block.flatMap bound).contains "ClientPet") =
          true := by
    rw [hd]
    decide +kernel
  refine ⟨rfl, made, hd ▸ generate_eq_text hmade, rfl, fun once => ?_⟩
  rw [hmade] at both
  simp only [Except.toOption, Option.all_some, Bool.and_eq_true, List.contains_iff_mem] at both
  rw [Parts.lines, List.flatMap_append, List.flatMap_append, List.flatMap_append, bound_spaced]
    at once
  have apart := (List.nodup_append'.mp (List.nodup_append'.mp once).1).2.2
  exact apart (List.mem_append_right _ both.1) both.2

end Module

end ApiBinding
