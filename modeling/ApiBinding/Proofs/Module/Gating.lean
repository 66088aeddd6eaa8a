import ApiBinding.Proofs.Client.Partition
import ApiBinding.Proofs.Module.Writing

/-!
Which parts of a module appear. What is written of each client does not depend on what of it
appears: settings that differ in what they show choose from the same parts.
-/

namespace ApiBinding

/-- What settings say of the parts of clients: which are built, and which of these do not appear. -/
structure Gates where
  generateClasses : Bool
  suppressClasses : Bool
  generateInterfaces : Bool
  suppressInterfaces : Bool

namespace Gates

def showsClasses (gates : Gates) : Bool := gates.generateClasses && !gates.suppressClasses

def showsInterfaces (gates : Gates) : Bool := gates.generateInterfaces && !gates.suppressInterfaces

def showsAny (gates : Gates) : Bool := gates.showsInterfaces || gates.showsClasses

end Gates

namespace Settings

def gates (settings : Settings) : Gates where
  generateClasses := settings.generateClasses
  suppressClasses := settings.suppressClasses
  generateInterfaces := settings.generateInterfaces
  suppressInterfaces := settings.suppressInterfaces

/-- The settings with other gates. -/
def gated (settings : Settings) (gates : Gates) : Settings :=
  { settings with
    generateClasses := gates.generateClasses
    suppressClasses := gates.suppressClasses
    generateInterfaces := gates.generateInterfaces
    suppressInterfaces := gates.suppressInterfaces }

theorem gated_gates (settings : Settings) : settings.gated settings.gates = settings := rfl

theorem clientName_gated (settings : Settings) (gates : Gates) (tag : String) :
    (settings.gated gates).clientName tag = settings.clientName tag := by
  rw [clientName, clientName]
  rfl

end Settings

namespace Operation

variable (operation : Operation) (settings : Settings) (gates : Gates)

theorem names_gated : operation.names (settings.gated gates) = operation.names settings := by
  simp only [names, clientNames, Settings.clientName_gated]

theorem toMethod_gated :
    operation.toMethod (settings.gated gates) = operation.toMethod settings := by
  unfold toMethod
  rw [names_gated]
  rfl

theorem exception_mem_support {operation : Operation} {settings : Settings} {method : Method}
    (made : operation.toMethod settings = .ok method) : .exception ∈ method.support := by
  obtain ⟨names, _, _, _, making⟩ := toMethod_eq_ok made
  have raises : SupportClass.exception ∈ (operation.responseMode settings names).support := by
    cases operation.responseMode settings names <;> decide
  rw [making.support]
  exact List.mem_append_left _ raises

end Operation

namespace Client

/-- The client as it is under other gates. -/
def gated (client : Client) (gates : Gates) : Client :=
  { client with
    buildsClass := gates.generateClasses
    showsClass := gates.showsClasses
    buildsInterface := gates.generateInterfaces
    showsInterface := gates.showsInterfaces }

variable (settings : Settings) (gates : Gates)

theorem ofGroup_gated (tag : String) (methods : List Method) :
    ofGroup (settings.gated gates) tag methods = (ofGroup settings tag methods).gated gates := by
  simp only [ofGroup, gated, Settings.clientName_gated]
  rfl

theorem toMethods_gated (before : Option Nat) (operations : List Operation) :
    toMethods (settings.gated gates) before operations = toMethods settings before operations := by
  induction operations generalizing before with
  | nil => rfl
  | cons operation operations ih =>
    simp only [toMethods, Operation.names_gated, Operation.toMethod_gated, ih]
    rfl

theorem ofGroups_gated (taken : NameTable) (groups : List (String × List Member)) :
    ofGroups (settings.gated gates) taken groups =
      (ofGroups settings taken groups).map
        fun made => (made.1.map fun client => client.gated gates, made.2) := by
  induction groups generalizing taken with
  | nil => rfl
  | cons group groups ih =>
    obtain ⟨tag, members⟩ := group
    simp only [ofGroups_cons, ofGroup_gated, Settings.clientName_gated, ih]
    cases requireDistinct (settings.clientName tag) [] (members.map Prod.snd) with
    | error failure => rfl
    | ok _ =>
      simp only [ok_bind]
      cases taken.enter .clients (settings.clientName tag) (label tag) with
      | error failure => rfl
      | ok taken =>
        simp only [ok_bind]
        cases taken.enter .clients (settings.clientName tag ++ interfaceEnding) (label tag) with
        | error failure => rfl
        | ok taken =>
          simp only [ok_bind]
          cases ofGroups settings taken groups <;> rfl

theorem allDeclarations_gated (clients : List Client) :
    allDeclarations (clients.map fun client => client.gated gates) = allDeclarations clients := by
  rw [allDeclarations, allDeclarations, List.flatMap_map]
  rfl

/-- The clients of a description under other gates are the same but for what of them appears. -/
theorem ofDescription_gated (description : Description) (before : Option Nat) :
    (ofDescription description (settings.gated gates) before).result =
      (ofDescription description settings before).result.map
        (List.map fun client => client.gated gates) := by
  unfold ofDescription
  simp only [Operation.names_gated, toMethods_gated]
  cases description.operations.mapM fun operation => operation.names settings with
  | error failure => rfl
  | ok names =>
    simp only
    cases (toMethods settings before description.operations).result with
    | error failure => rfl
    | ok members =>
      show ofMembers (settings.gated gates) members = (ofMembers settings members).map _
      unfold ofMembers
      rw [ofGroups_gated]
      cases ofGroups settings [] (byTag members) with
      | error failure => rfl
      | ok made =>
        obtain ⟨clients, taken⟩ := made
        have models : (settings.gated gates).generateModels = settings.generateModels := rfl
        simp only [Except.map, ok_bind, models, checkDeclarations, allDeclarations_gated]
        split
        next =>
          cases (taken.enterAll NameScope.types ((allDeclarations clients).map
            fun declaration => (declaration.name, declaration.source))).2 <;> rfl
        next => rfl

/-- Whether lines are those of a class that gives the interface as its last base, and marks each of
its methods as one that the interface has. -/
def Implements (client : Client) (dialect : Dialect) (lines : List String) : Prop :=
  ∃ methods : List (List String),
    List.Forall₂ (fun method body => ["    @override", method.signature dialect] <+: body)
      client.methods methods ∧
    lines = [
        "class " ++ client.className ++ "("
          ++ Text.joined ", " (given client.baseClass ++ [client.interfaceName]) ++ "):",
        "    base_url: str = ''",
        ""]
      ++ client.constructorLines ++ methods.flatMap ("" :: ·)

variable {client : Client} {dialect : Dialect}

theorem implements_of_classLines (builds : client.buildsInterface = true) {lines : List String}
    (h : client.classLines dialect = .ok lines) : client.Implements dialect lines := by
  obtain ⟨methods, written, h⟩ := bind_eq_ok.mp h
  refine ⟨methods, (mapM_eq_ok.mp written).imp fun method body h => ?_, ?_⟩
  · rw [builds] at h
    obtain ⟨docstring, _, h⟩ := bind_eq_ok.mp h
    obtain ⟨steps, _, h⟩ := bind_eq_ok.mp h
    cases h
    exact ⟨docstring ++ steps.flatten, rfl⟩
  · simpa [builds] using h.symm

theorem isOk_of_builtPart {builds : Bool} {written : Except Failure (List String)}
    {blocks : List (List String)} (h : Code.builtPart builds written = .ok blocks)
    (on : builds = true) : written.isOk = true := by
  rw [Code.builtPart, if_pos on] at h
  obtain ⟨lines, rfl, _⟩ := map_eq_ok.mp h
  rfl

theorem builtPart_eq_ok {builds : Bool} {written : Except Failure (List String)}
    (h : builds = true → written.isOk = true) :
    Code.builtPart builds written = .ok (if builds then [written.toOption.getD []] else []) := by
  unfold Code.builtPart
  split
  next on =>
    obtain ⟨lines, rfl⟩ := exists_eq_ok (h on)
    rfl
  next => rfl

/-- What is built of a client has been written. -/
theorem isOk_of_blocks {blocks : List (List String)} (h : client.blocks dialect = .ok blocks) :
    (client.buildsInterface = true → (client.interfaceLines dialect).isOk = true) ∧
      (client.buildsClass = true → (client.classLines dialect).isOk = true) := by
  rw [Code.blocks_eq] at h
  obtain ⟨interfaces, interfaced, h⟩ := bind_eq_ok.mp h
  obtain ⟨classes, classed, _⟩ := bind_eq_ok.mp h
  exact ⟨isOk_of_builtPart interfaced, isOk_of_builtPart classed⟩

end Client

/-- Whether all that classes are written from can be read: summaries are texts or left out, and
statuses stand for statuses that can be tested. -/
def Description.IsLegible (description : Description) : Prop :=
  ∀ operation ∈ description.operations, operation.summary.IsProse ∧
    ∀ response ∈ operation.responses, StatusTest.IsReadable response.statusKey

namespace Module

/-- What can appear in a module: for each client, the lines of its interface and of its class. -/
structure Stock where
  header : List String
  declarations : List String
  clients : List (List String × List String)
  support : List String

/-- The lines of a module of which some parts are shown. -/
def Stock.lines (stock : Stock) (gates : Gates) : List String :=
  stock.header ++ (if gates.showsAny then stock.declarations else [])
    ++ stock.clients.flatMap (fun part =>
      (if gates.showsInterfaces then part.1 ++ ["", ""] else [])
        ++ (if gates.showsClasses then part.2 ++ ["", ""] else []))
    ++ (if gates.showsAny then stock.support else [])

/-- What can appear of clients. A part that cannot be written comes to no lines. -/
def stock (clients : List Client) (settings : Settings) (dialect : Dialect) : Stock where
  header := Header.lines dialect settings.additionalImports
  declarations :=
    if settings.generateModels then (Client.allDeclarations clients).flatMap Declaration.lines
    else []
  clients := clients.map fun client =>
    ((client.interfaceLines dialect).toOption.getD [], (client.classLines dialect).toOption.getD [])
  support := SupportClass.linesOf (requiredSupport clients)

/-- The blocks that appear of the lines of an interface and of a class. -/
def shownBlocks (gates : Gates) (parts : List String × List String) : List (List String) :=
  (if gates.showsInterfaces then [parts.1] else []) ++ (if gates.showsClasses then [parts.2] else [])

/-- Whether all that gates ask for can be written of clients. -/
structure Allows (clients : List Client) (dialect : Dialect) (gates : Gates) : Prop where
  same : ∀ client ∈ clients, client.buildsInterface = gates.generateInterfaces
  interfaces : gates.generateInterfaces = true →
    ∀ client ∈ clients, (client.interfaceLines dialect).isOk = true
  classes : gates.generateClasses = true →
    ∀ client ∈ clients, (client.classLines dialect).isOk = true

variable {clients : List Client} {settings : Settings} {dialect : Dialect} {gates : Gates}

theorem Allows.blocks_gated (allows : Allows clients dialect gates) {client : Client}
    (member : client ∈ clients) :
    (client.gated gates).blocks dialect = .ok (shownBlocks gates
      ((client.interfaceLines dialect).toOption.getD [],
        (client.classLines dialect).toOption.getD [])) := by
  have same := allows.same client member
  have interfaceLines : (client.gated gates).interfaceLines dialect =
      client.interfaceLines dialect := rfl
  have classLines : (client.gated gates).classLines dialect = client.classLines dialect := by
    simp only [Client.classLines, Client.gated, ← same]
    rfl
  have interfaces := Client.builtPart_eq_ok fun on => allows.interfaces on client member
  have classes := Client.builtPart_eq_ok fun on => allows.classes on client member
  rw [Code.blocks_eq, interfaceLines, classLines]
  show (Code.builtPart gates.generateInterfaces _ >>= fun _ =>
    Code.builtPart gates.generateClasses _ >>= fun _ => _) = _
  rw [interfaces, classes]
  show Except.ok ((if gates.showsInterfaces then _ else []) ++ if gates.showsClasses then _ else [])
    = _
  unfold shownBlocks Gates.showsInterfaces Gates.showsClasses
  cases gates.generateInterfaces <;> cases gates.generateClasses <;> simp

theorem shown_gated (clients : List Client) (gates : Gates) :
    shown (clients.map fun client => client.gated gates) =
      if gates.showsAny then clients.map fun client => client.gated gates else [] := by
  have each (client : Client) : (client.gated gates).isShown = gates.showsAny := rfl
  rw [shown, List.filter_map]
  cases shows : gates.showsAny <;> simp [Function.comp_def, each, shows]

theorem support_gated (clients : List Client) (gates : Gates) :
    SupportClass.linesOf (requiredSupport (shown (clients.map fun client => client.gated gates))) =
      if gates.showsAny then SupportClass.linesOf (requiredSupport clients) else [] := by
  rw [shown_gated]
  split
  next =>
    simp only [requiredSupport, List.any_map]
    rfl
  next => rfl

theorem declarations_gated (clients : List Client) (gates : Gates) :
    (declared (clients.map fun client => client.gated gates)).flatMap Declaration.lines =
      if gates.showsAny then (Client.allDeclarations clients).flatMap Declaration.lines else [] := by
  rw [declared, shown_gated]
  split
  next => rw [Client.allDeclarations_gated]
  next => rfl

theorem spaced_shownBlocks (gates : Gates) (parts : List (List String × List String)) :
    (parts.map (shownBlocks gates)).flatten.flatMap (fun block => block ++ ["", ""]) =
      parts.flatMap fun part =>
        (if gates.showsInterfaces then part.1 ++ ["", ""] else [])
          ++ (if gates.showsClasses then part.2 ++ ["", ""] else []) := by
  rw [← List.flatMap_def, List.flatMap_assoc]
  unfold shownBlocks
  cases gates.showsInterfaces <;> cases gates.showsClasses <;> simp

/-- Clients under other gates give a module that shows other parts of the same stock. -/
theorem Allows.render_gated (allows : Allows clients dialect gates)
    (versioned : settings.dialect = .ok dialect) :
    render (clients.map fun client => client.gated gates) (settings.gated gates) =
      .ok (text ((stock clients settings dialect).lines gates)) := by
  have versioned : (settings.gated gates).dialect = .ok dialect := versioned
  have blocked : (clients.map fun client => client.gated gates).mapM
      (fun client => client.blocks dialect) =
        .ok ((stock clients settings dialect).clients.map (shownBlocks gates)) := by
    rw [mapM_eq_ok]
    simp only [stock, List.map_map, List.forall₂_map_left_iff, List.forall₂_map_right_iff]
    exact List.forall₂_same.mpr fun client member => allows.blocks_gated member
  have lines : layout (clients.map fun client => client.gated gates) (settings.gated gates) dialect
      ((stock clients settings dialect).clients.map (shownBlocks gates)).flatten =
        (stock clients settings dialect).lines gates := by
    rw [layout, Stock.lines, support_gated, declarations_gated, spaced_shownBlocks]
    have models : (settings.gated gates).generateModels = settings.generateModels := rfl
    simp only [stock, models]
    cases settings.generateModels <;> cases gates.showsAny <;> rfl
  unfold render parts
  rw [versioned, ok_bind, blocked, ← lines]
  rfl

section

variable {description : Description} {before : Option Nat}

open Client (ofDescription)

theorem client_of_mem {client : Client}
    (built : (ofDescription description settings before).result = .ok clients)
    (member : client ∈ clients) : client.buildsInterface = settings.generateInterfaces ∧
      client.buildsClass = settings.generateClasses ∧ client.methods ≠ [] := by
  obtain ⟨members, taken, built⟩ := Client.built_of_ofDescription built
  rw [built.clients_eq] at member
  obtain ⟨tag, tagged, rfl⟩ := List.mem_map.mp member
  refine ⟨rfl, rfl, ?_⟩
  rw [← built.operations] at tagged
  obtain ⟨operation, inside, same⟩ := Client.mem_tags.mp tagged
  obtain ⟨entry, given, rfl⟩ := List.mem_map.mp inside
  have kept : entry ∈ Client.membersOf tag members :=
    List.mem_filter.mpr ⟨given, beq_iff_eq.mpr same⟩
  rw [Client.ofGroup_methods]
  exact List.ne_nil_of_mem (List.mem_map_of_mem kept)

/-- Support classes appear wherever a client does, since every method can raise the exception. -/
theorem support_eq_nil (built : (ofDescription description settings before).result = .ok clients) :
    SupportClass.linesOf (requiredSupport clients) = [] ↔ clients = [] := by
  refine ⟨fun none => ?_, fun none => none ▸ rfl⟩
  cases clients with
  | nil => rfl
  | cons client others =>
    obtain ⟨_, _, some⟩ := client_of_mem built List.mem_cons_self
    obtain ⟨method, given⟩ := List.exists_mem_of_ne_nil _ some
    obtain ⟨operation, _, made⟩ := exists_operation_of_mem_methods built List.mem_cons_self given
    have raises : SupportClass.exception ∈ requiredSupport (client :: others) := by
      refine List.mem_filter.mpr ⟨by decide, List.any_eq_true.mpr ⟨client, List.mem_cons_self, ?_⟩⟩
      exact List.any_eq_true.mpr
        ⟨method, given, List.contains_iff_mem.mpr (Operation.exception_mem_support made)⟩
    have required : SupportClass.exception ∈
        SupportClass.all.filter (SupportClass.isRequired (requiredSupport (client :: others))) := by
      refine List.mem_filter.mpr ⟨by decide, ?_⟩
      rw [SupportClass.isRequired, List.contains_iff_mem.mpr raises, Bool.true_or]
    have lines := List.flatMap_eq_nil_iff.mp none .exception required
    exact absurd lines (by simp)

theorem exists_classLines (legible : description.IsLegible)
    (built : (ofDescription description settings before).result = .ok clients) (dialect : Dialect)
    {client : Client} (member : client ∈ clients) :
    ∃ lines, client.classLines dialect = .ok lines := by
  have from_ {method : Method} (given : method ∈ client.methods) :=
    exists_operation_of_mem_methods built member given
  refine (Client.classLines_hingesOn (fun method given => ?_) dialect).ok fun method given => ?_
  · obtain ⟨operation, ho, made⟩ := from_ given
    rw [Operation.summary_of_toMethod made]
    exact (legible operation ho).1
  · obtain ⟨operation, ho, made⟩ := from_ given
    exact (Operation.readable_iff made).mpr (legible operation ho).2

/-- What a module shows of its clients is chosen from one stock, in its order: the head, the
declarations, for each tag the interface and the class, and the support classes. Other gates choose
from the same stock, as long as interfaces are built as before, so that a class keeps its interface
even where the interface is not shown. -/
theorem chosen_from_stock {text : String}
    (h : (generate description settings before).result = .ok text) :
    ∃ clients dialect,
      (ofDescription description settings before).result = .ok clients ∧
      clients.map Client.tag = (description.operations.map Operation.tag).eraseDups ∧
      settings.dialect = .ok dialect ∧
      (settings.generateInterfaces = true →
        ∀ client ∈ clients, ∃ lines, client.interfaceLines dialect = .ok lines) ∧
      (settings.generateClasses = true ∨ description.IsLegible →
        ∀ client ∈ clients, ∃ lines, client.classLines dialect = .ok lines ∧
          (settings.generateInterfaces = true → client.Implements dialect lines)) ∧
      ((stock clients settings dialect).support = [] ↔ clients = []) ∧
      text = Module.text ((stock clients settings dialect).lines settings.gates) ∧
      ∀ gates : Gates, gates.generateInterfaces = settings.generateInterfaces →
        (gates.generateClasses = true → settings.generateClasses = true ∨ description.IsLegible) →
        (generate description (settings.gated gates) before).result =
          .ok (Module.text ((stock clients settings dialect).lines gates)) := by
  obtain ⟨clients, dialect, blocks, rendered⟩ := rendered_of_generate h
  have built := rendered.built
  have written {client : Client} (member : client ∈ clients) :
      (settings.generateInterfaces = true → (client.interfaceLines dialect).isOk = true) ∧
        (settings.generateClasses = true → (client.classLines dialect).isOk = true) := by
    obtain ⟨lines, _, blocked⟩ := exists_of_forall₂ rendered.blocked.flip member
    obtain ⟨buildsInterface, buildsClass, _⟩ := client_of_mem built member
    rw [← buildsInterface, ← buildsClass]
    exact Client.isOk_of_blocks blocked
  have classes (readable : settings.generateClasses = true ∨ description.IsLegible)
      {client : Client} (member : client ∈ clients) :
      ∃ lines, client.classLines dialect = .ok lines := by
    cases readable with
    | inl builds => exact exists_eq_ok ((written member).2 builds)
    | inr legible => exact exists_classLines legible built dialect member
  have others (gates : Gates) (same : gates.generateInterfaces = settings.generateInterfaces)
      (readable : gates.generateClasses = true →
        settings.generateClasses = true ∨ description.IsLegible) :
      (generate description (settings.gated gates) before).result =
        .ok (Module.text ((stock clients settings dialect).lines gates)) := by
    have allows : Allows clients dialect gates := by
      refine ⟨fun client member => ?_, fun on client member => ?_, fun on client member => ?_⟩
      · rw [same, (client_of_mem built member).1]
      · exact (written member).1 (same ▸ on)
      · obtain ⟨lines, ok⟩ := classes (readable on) member
        rw [ok]
        rfl
    have gated := Client.ofDescription_gated settings gates description before
    rw [built] at gated
    rw [generate, gated]
    exact allows.render_gated rendered.versioned
  refine ⟨clients, dialect, built, ?_, rendered.versioned, ?_, ?_, ?_, ?_, others⟩
  · obtain ⟨members, taken, made⟩ := Client.built_of_ofDescription built
    rw [made.map_tag, Client.tags, Entries.firsts_id_eq_eraseDups]
  · exact fun on client member => exists_eq_ok ((written member).1 on)
  · intro readable client member
    obtain ⟨lines, ok⟩ := classes readable member
    refine ⟨lines, ok, fun on => Client.implements_of_classLines ?_ ok⟩
    rw [(client_of_mem built member).1, on]
  · exact support_eq_nil built
  · have same := others settings.gates rfl .inl
    rw [Settings.gated_gates, h] at same
    exact Except.ok.inj same

/-- Settings that build interfaces beside the classes. -/
def implementing : Settings := { Settings.standard with generateInterfaces := true }

/-- With the interfaces left out, the classes for two tags still name and override them. -/
theorem chosen_without_interfaces : ∃ clients dialect,
    clients.map Client.tag = ["Pet", "Store"] ∧
      (stock clients implementing dialect).support ≠ [] ∧
      (∀ client ∈ clients, ∃ lines, client.classLines dialect = .ok lines ∧
        client.Implements dialect lines) ∧
      (generate Client.petsAroundStore
          (implementing.gated { implementing.gates with suppressInterfaces := true })).result =
        .ok (Module.text ((stock clients implementing dialect).lines
          { implementing.gates with suppressInterfaces := true })) := by
  have written : (generate Client.petsAroundStore implementing).result.isOk = true := by
    decide +kernel
  obtain ⟨text, h⟩ := exists_eq_ok written
  obtain ⟨clients, dialect, _, tagged, _, _, classes, supported, _, others⟩ := chosen_from_stock h
  have tags : clients.map Client.tag = ["Pet", "Store"] := by
    rw [tagged]
    decide
  refine ⟨clients, dialect, tags, fun none => ?_, fun client member => ?_, others _ rfl .inl⟩
  · rw [supported.mp none] at tags
    cases tags
  · obtain ⟨lines, ok, implements⟩ := classes (.inl rfl) client member
    exact ⟨lines, ok, implements rfl⟩

end

end Module

end ApiBinding
