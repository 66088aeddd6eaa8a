import ApiBinding.Proofs.Code.Declared
import ApiBinding.Proofs.Method.ResponseTable
import ApiBinding.Proofs.Settings.Check
import Mathlib.Data.List.Nodup

/-!
The support classes of a module: each one that a client relies on is declared once, behind all
clients and behind the class that it extends, and nothing else in the module has its name.
-/

namespace ApiBinding

open Code (declared?)

namespace SupportClass

theorem name_injective : Function.Injective name := by
  intro first second same
  cases first <;> cases second <;> first | rfl | exact absurd same (by decide)

theorem mem_all (support : SupportClass) : support ∈ all := by cases support <;> decide

theorem nodup_all : all.Nodup := by decide

/-- The line that begins the text of a support class. -/
def opening (support : SupportClass) : String := support.lines.headD ""

def inner (support : SupportClass) : List String := support.lines.tail ++ ["", ""]

theorem lines_eq (support : SupportClass) :
    support.lines ++ ["", ""] = support.opening :: support.inner := by
  cases support <;> rfl

theorem declared?_opening (support : SupportClass) :
    declared? support.opening = some support.name := by
  cases support <;> decide

theorem isInner_inner (support : SupportClass) : ∀ line ∈ support.inner, Code.IsInner line := by
  cases support <;>
    simp only [inner, lines, exceptionLines, responseLines, disposableResponseLines,
      arrayStreamLines, arrayStreamContentLines, List.tail_cons, List.forall_mem_append,
      List.forall_mem_cons, List.not_mem_nil, false_implies, implies_true, and_true] <;>
    and_intros <;>
    first
      | with_reducible exact Code.isInner_empty
      | with_reducible refine (Code.Indented.append ?_ _).isInner
        exact Code.indented_ofList rfl
      | exact (Code.indented_ofList rfl).isInner

theorem declares (support : SupportClass) :
    Code.Declares support.name (support.lines ++ ["", ""]) := by
  rw [lines_eq]
  exact Code.declares_of_opening (declared?_opening support) fun line member =>
    (isInner_inner support line member).binds_nothing

/-- The line that begins a support class names no other than its base. -/
theorem base_of_opening {support base : SupportClass} (other : base ≠ support)
    (h : base.name ∈ Code.names [support.opening]) : support.base? = some base := by
  revert other h
  cases support <;> cases base <;> decide

theorem declared_blocks (supports : List SupportClass) :
    (supports.flatMap fun support => support.lines ++ ["", ""]).filterMap declared? =
      supports.map name := by
  simp only [List.filterMap_flatMap, (declares _).declared, List.map_eq_flatMap]

/-- Where lines of support classes declare one of them, its text begins. -/
theorem split_of_declared {supports : List SupportClass} {support : SupportClass}
    {earlier later : List String} {line : String}
    (h : (supports.flatMap fun support => support.lines ++ ["", ""]) = earlier ++ line :: later)
    (declares : declared? line = some support.name) :
    ∃ before after, supports = before ++ support :: after ∧ line = support.opening ∧
      earlier.filterMap declared? = before.map name := by
  induction supports generalizing earlier with
  | nil => simp at h
  | cons first supports ih =>
    have further {middle : List String} (split : earlier = (first.lines ++ ["", ""]) ++ middle)
        (h : (supports.flatMap fun support => support.lines ++ ["", ""]) =
          middle ++ line :: later) :
        ∃ before after, first :: supports = before ++ support :: after ∧ line = support.opening ∧
          earlier.filterMap declared? = before.map name := by
      obtain ⟨before, after, rfl, begins, names⟩ := ih h
      refine ⟨first :: before, after, rfl, begins, ?_⟩
      have block := declared_blocks [first]
      rw [List.flatMap_singleton] at block
      rw [split, List.filterMap_append, block, names]
      rfl
    rw [List.flatMap_cons] at h
    rcases List.append_eq_append_iff.mp h with ⟨middle, split, rest⟩ | ⟨middle, split, rest⟩
    · exact further split rest
    · obtain _ | ⟨head, middle⟩ := middle
      · exact further (by simpa using split.symm) (by simpa using rest.symm)
      · obtain ⟨rfl, rfl⟩ := List.cons.inj rest
        rw [lines_eq] at split
        obtain _ | ⟨start, earlier⟩ := earlier
        · obtain ⟨rfl, _⟩ := List.cons.inj split
          rw [declared?_opening, Option.some.injEq] at declares
          obtain rfl := name_injective declares
          exact ⟨[], supports, rfl, rfl, rfl⟩
        · obtain ⟨_, split⟩ := List.cons.inj split
          have silent := (isInner_inner first line (by rw [split]; simp)).binds_nothing
          rw [Code.declared?_of_bound silent] at declares
          cases declares

end SupportClass

/-- Whether lines declare a support class once, and behind each other one that the line names by
which they declare it. -/
def DeclaresOnce (lines : List String) (support : SupportClass) : Prop :=
  (lines.filterMap declared?).count support.name = 1 ∧
    ∀ earlier line later, lines = earlier ++ line :: later →
      declared? line = some support.name → ∀ base : SupportClass, base ≠ support →
        base.name ∈ Code.names [line] → base.name ∈ earlier.filterMap declared?

namespace SupportClass

variable {required : List SupportClass} {support : SupportClass}

theorem isRequired_base {base : SupportClass} (h : isRequired required support = true)
    (extended : support.base? = some base) : isRequired required base = true := by
  have direct : support ∈ required := by
    simp only [isRequired, Bool.or_eq_true, List.any_eq_true, decide_eq_true_eq,
      List.contains_iff_mem] at h
    rcases h with h | ⟨other, _, h⟩
    · exact h
    · -- No base extends another class.
      exfalso
      revert extended h
      cases support <;> cases base <;> cases other <;> decide
  simp only [isRequired, Bool.or_eq_true, List.any_eq_true, decide_eq_true_eq]
  exact .inr ⟨support, direct, extended⟩

theorem declaresOnce_linesOf (h : support ∈ required) :
    DeclaresOnce (linesOf required) support := by
  have isRequired_support : isRequired required support = true := by
    rw [isRequired, List.contains_iff_mem.mpr h, Bool.true_or]
  constructor
  · rw [linesOf, declared_blocks]
    refine List.count_eq_one_of_mem ((nodup_all.filter _).map name_injective) ?_
    exact List.mem_map_of_mem (List.mem_filter.mpr ⟨mem_all support, isRequired_support⟩)
  · intro earlier line later split declares base other named
    obtain ⟨before, after, order, rfl, names⟩ := split_of_declared split declares
    have extended := base_of_opening other named
    rw [names]
    have present : base ∈ before ++ support :: after := by
      rw [← order]
      exact List.mem_filter.mpr ⟨mem_all base, isRequired_base isRequired_support extended⟩
    have sorted : (before ++ support :: after).Pairwise fun first second =>
        first.base? ≠ some second := by
      rw [← order]
      have all_sorted : all.Pairwise fun first second => first.base? ≠ some second := by decide
      exact all_sorted.filter _
    rcases List.mem_append.mp present with present | present
    · exact List.mem_map_of_mem present
    · rcases List.mem_cons.mp present with rfl | present
      · exact absurd rfl other
      · have behind := (List.pairwise_cons.mp (List.pairwise_append.mp sorted).2.1).1 base present
        exact absurd extended behind

end SupportClass

namespace Header

theorem declared?_import {lead : String} {first second : Char} {rest : List Char}
    (text : lead.toList = "from".toList ++ first :: second :: rest)
    (stops : Code.isWordChar first = false ∧ second ≠ '=') (names : String) :
    declared? (lead ++ names) = none := by
  have text : (lead ++ names).toList =
      "from".toList ++ first :: second :: (rest ++ names.toList) := by
    rw [String.toList_append, text]
    rfl
  rw [Code.declared?_eq text (by decide) (by simpa using stops.1)]
  simp [Text.after?, Ne.symm stops.2]

/-- Of the lines of a head, only the additional imports can declare another name than that of the
type variable. -/
theorem declared?_line {dialect : Dialect} {additionalImports : List String} :
    ∀ line ∈ lines dialect additionalImports,
      line ∈ additionalImports ∨ declared? line = none ∨ declared? line = some "T" := by
  have plain {fixed : List String}
      (h : ∀ line ∈ fixed, declared? line = none ∨ declared? line = some "T") :
      ∀ line ∈ fixed,
        line ∈ additionalImports ∨ declared? line = none ∨ declared? line = some "T" :=
    fun line member => .inr (h line member)
  have typing (names : String) : declared? ("from typing import " ++ names) = none :=
    declared?_import rfl (by decide) names
  have extensions (names : String) : declared? ("from typing_extensions import " ++ names) = none :=
    declared?_import rfl (by decide) names
  unfold lines
  dsimp only
  simp only [List.forall_mem_append]
  refine ⟨⟨⟨⟨⟨plain (by decide), plain ?_⟩, plain ?_⟩, plain ?_⟩, ?_⟩, plain (by decide)⟩
  · split <;> decide
  · simp only [List.forall_mem_cons, List.not_mem_nil, false_implies, implies_true, and_true]
    exact ⟨by decide, by decide, by decide, .inl (typing _), by decide, by decide, by decide⟩
  · split
    · simp
    · rw [List.forall_mem_singleton]
      exact .inl (extensions _)
  · split
    · simp
    · rw [List.forall_mem_cons]
      exact ⟨.inr (by decide), fun line member => .inl member⟩

theorem additional_of_declared {dialect : Dialect} {additionalImports : List String}
    {line : String} (h : line ∈ lines dialect additionalImports) {support : SupportClass}
    (declares : declared? line = some support.name) : line ∈ additionalImports := by
  have other : support.name ≠ "T" := by cases support <;> decide
  rcases declared?_line line h with additional | silent | typeVariable
  · exact additional
  · rw [declares] at silent
    cases silent
  · rw [declares, Option.some.injEq] at typeVariable
    exact absurd typeVariable other

end Header

namespace Settings

variable {settings : Settings}

theorem isTypeName_of_checked (h : settings.checked = .ok settings) :
    ∀ name ∈ settings.typeNames, Setting.isTypeName name = true := by
  obtain ⟨_, configuration, baseClass, baseInterface, transport, _⟩ := checked_eq_ok.mp h
  simp only [typeNames, List.forall_mem_append, Option.mem_toList, Setting.isTypeName_iff]
  simp only [Setting.checkTypeName_eq_ok] at configuration baseClass baseInterface transport
  exact ⟨⟨⟨configuration, baseClass⟩, baseInterface⟩, transport⟩

/-- The support classes that the class names of the settings name. -/
def namedSupport (settings : Settings) : List SupportClass :=
  SupportClass.all.filter fun support =>
    settings.typeNames.any fun name => (Code.names [name]).contains support.name

theorem mem_namedSupport {support : SupportClass} :
    support ∈ settings.namedSupport ↔
      ∃ name ∈ settings.typeNames, support.name ∈ Code.names [name] := by
  simp [namedSupport, SupportClass.mem_all]

theorem says_typeName (h : settings.checked = .ok settings) :
    ∀ name ∈ settings.typeNames, Code.Says settings.namedSupport name := by
  intro name given
  obtain ⟨path, ends⟩ := Code.read_typeName (isTypeName_of_checked h name given)
  refine Code.says_of_names ends fun other member known => ?_
  obtain ⟨support, _, rfl⟩ := List.mem_map.mp known
  exact List.mem_map_of_mem (mem_namedSupport.mpr ⟨name, given, member⟩)

end Settings

namespace Module

variable {description : Description} {settings : Settings} {before : Option Nat} {text : String}

theorem exists_client_of_block {clients : List Client} {dialect : Dialect}
    {blocks : List (List (List String))}
    (blocked : List.Forall₂ (fun client lines => client.blocks dialect = .ok lines) clients blocks)
    {block : List String} (h : block ∈ blocks.flatten) :
    ∃ client ∈ shown clients, ∃ lines, client.blocks dialect = .ok lines ∧ block ∈ lines := by
  obtain ⟨lines, hlines, inside⟩ := List.mem_flatten.mp h
  obtain ⟨client, hclient, written⟩ := exists_of_forall₂ blocked hlines
  refine ⟨client, List.mem_filter.mpr ⟨hclient, ?_⟩, lines, written, inside⟩
  rcases Code.lines_of_blocks written block inside with ⟨shows, _⟩ | ⟨shows, _⟩
  · rw [Client.isShown, shows, Bool.true_or]
  · rw [Client.isShown, shows, Bool.or_true]

theorem mem_requiredSupport {clients : List Client} {client : Client} (h : client ∈ clients)
    {support : SupportClass} (needed : support ∈ client.support) :
    support ∈ requiredSupport clients :=
  List.mem_filter.mpr ⟨SupportClass.mem_all support,
    List.any_eq_true.mpr ⟨client, h, (List.mem_filter.mp needed).2⟩⟩

theorem exists_ofGroup {clients : List Client}
    (built : (Client.ofDescription description settings before).result = .ok clients)
    {client : Client} (h : client ∈ clients) :
    ∃ tag methods, client = Client.ofGroup settings tag methods := by
  obtain ⟨members, taken, built⟩ := Client.built_of_ofDescription built
  rw [built.clients_eq] at h
  obtain ⟨tag, _, rfl⟩ := List.mem_map.mp h
  exact ⟨tag, _, rfl⟩

theorem exists_name_of_declared {clients : List Client}
    (built : (Client.ofDescription description settings before).result = .ok clients)
    {declaration : Declaration} (h : declaration ∈ declared clients) :
    ∃ raw, declaration.name = Identifier.ofRaw .type raw := by
  obtain ⟨shape, _, _, made⟩ := made_of_declared built h
  exact ⟨_, (Declaration.ofMeeting_eq_ok made).1⟩

theorem ne_support {name : String} (h : Code.Allows [] name) (support : SupportClass) :
    name ≠ support.name := by
  rintro rfl
  cases h (List.mem_map_of_mem (SupportClass.mem_all support))

/-- What a block of a client names are support classes that the module brings along, or ones that
the class names of the settings name. -/
theorem required_of_named {clients : List Client} {dialect : Dialect}
    (checked : settings.checked = .ok settings)
    (built : (Client.ofDescription description settings before).result = .ok clients)
    {client : Client} (h : client ∈ shown clients) {blocks : List (List String)}
    (written : client.blocks dialect = .ok blocks) {block : List String} (inside : block ∈ blocks)
    {support : SupportClass} (named : support.name ∈ Code.names block) :
    support ∈ settings.namedSupport ∨ support ∈ requiredSupport (shown clients) := by
  have hclient : client ∈ clients := (List.mem_filter.mp h).1
  have fits : Code.ClientFits (settings.namedSupport ++ client.support) client := by
    obtain ⟨tag, methods, rfl⟩ := exists_ofGroup built hclient
    refine Code.fits_ofGroup (fun name given => ?_) fun method given => ⟨?_, ?_⟩
    · exact (Settings.says_typeName checked name given).mono (List.subset_append_left ..)
    · have used : method.support ⊆ (Client.ofGroup settings tag methods).support :=
        Code.support_subset given
      exact fun one member => List.mem_append_right _ (used member)
    · obtain ⟨operation, _, made⟩ := exists_operation_of_mem_methods built hclient given
      exact ⟨operation, settings, made⟩
  have allowed := (fits.reads_blocks written block inside).names _ named
    (List.mem_map_of_mem (SupportClass.mem_all support))
  obtain ⟨other, member, same⟩ := List.mem_map.mp allowed
  obtain rfl := SupportClass.name_injective same
  exact (List.mem_append.mp member).imp_right (mem_requiredSupport h)

/-- No model, interface or class declares the name of a support class. -/
theorem declared?_ne_support {clients : List Client} {dialect : Dialect}
    {blocks : List (List (List String))}
    (built : (Client.ofDescription description settings before).result = .ok clients)
    (blocked : List.Forall₂ (fun client lines => client.blocks dialect = .ok lines) clients blocks)
    {line : String}
    (h : line ∈ (declared clients).flatMap Declaration.lines ++ blocks.flatten.flatten)
    (support : SupportClass) : declared? line ≠ some support.name := by
  intro declares
  rcases List.mem_append.mp h with h | h
  · obtain ⟨declaration, hd, inside⟩ := List.mem_flatMap.mp h
    obtain ⟨raw, named⟩ := exists_name_of_declared built hd
    have own : support.name ∈ declaration.lines.filterMap declared? :=
      List.mem_filterMap.mpr ⟨line, inside, declares⟩
    rw [(Code.declares_type named).declared, List.mem_singleton, named] at own
    exact ne_support (Code.allows_type raw) support own.symm
  · obtain ⟨block, hblock, inside⟩ := List.mem_flatten.mp h
    obtain ⟨client, hclient, lines, written, hlines⟩ := exists_client_of_block blocked hblock
    obtain ⟨tag, methods, made⟩ := exists_ofGroup built (List.mem_filter.mp hclient).1
    obtain ⟨raw, same⟩ := Code.exists_clientName settings tag
    have own : support.name ∈ block.filterMap declared? :=
      List.mem_filterMap.mpr ⟨line, inside, declares⟩
    rcases Code.declares_block made written block hlines with names | names
    · rw [names.declared, List.mem_singleton, made, Client.ofGroup_interfaceName, same] at own
      exact ne_support (Code.allows_interface raw) support own.symm
    · rw [names.declared, List.mem_singleton, made, Client.ofGroup_className, same] at own
      exact ne_support (Code.allows_type raw) support own.symm

/-- Every support class that a class or an interface names, apart from those that a class name of
the settings names, is declared once, behind all clients and behind the support class that it
extends. Nothing else but additional imports declares the name of a support class. -/
theorem support_declared_once (checked : settings.checked = .ok settings)
    (h : (generate description settings before).result = .ok text) :
    ∃ clients dialect blocks,
      (Client.ofDescription description settings before).result = .ok clients ∧
      settings.dialect = .ok dialect ∧
      List.Forall₂ (fun client lines => client.blocks dialect = .ok lines) clients blocks ∧
      text = Module.text (Header.lines dialect settings.additionalImports
        ++ (if settings.generateModels then (declared clients).flatMap Declaration.lines else [])
        ++ blocks.flatten.flatMap (fun block => block ++ ["", ""])
        ++ SupportClass.linesOf (requiredSupport (shown clients))) ∧
      (∀ block ∈ blocks.flatten, ∀ support : SupportClass, support.name ∈ Code.names block →
        (∀ name ∈ settings.typeNames, support.name ∉ Code.names [name]) →
        DeclaresOnce (SupportClass.linesOf (requiredSupport (shown clients))) support) ∧
      (∀ line ∈ (declared clients).flatMap Declaration.lines ++ blocks.flatten.flatten,
        ∀ support : SupportClass, declared? line ≠ some support.name) ∧
      ∀ line ∈ Header.lines dialect settings.additionalImports, ∀ support : SupportClass,
        declared? line = some support.name → line ∈ settings.additionalImports := by
  obtain ⟨clients, dialect, blocks, rendered⟩ := rendered_of_generate h
  refine ⟨clients, dialect, blocks, rendered.built, rendered.versioned, rendered.blocked,
    rendered.text, ?_, fun line => declared?_ne_support rendered.built rendered.blocked,
    fun line member support => Header.additional_of_declared member⟩
  intro block hblock support named apart
  obtain ⟨client, hclient, lines, written, inside⟩ :=
    exists_client_of_block rendered.blocked hblock
  rcases required_of_named checked rendered.built hclient written inside named with given | needed
  · obtain ⟨name, hname, member⟩ := Settings.mem_namedSupport.mp given
    exact absurd member (apart name hname)
  · exact SupportClass.declaresOnce_linesOf needed

/-- The parts of the module for a description. -/
def partsOf (description : Description) (settings : Settings) : Except Failure Parts := do
  parts (← (Client.ofDescription description settings).result) settings

theorem generate_eq_text {made : Parts} (h : partsOf description settings = .ok made) :
    (generate description settings).result = .ok (Module.text made.lines) := by
  obtain ⟨clients, built, written⟩ := bind_eq_ok.mp h
  exact bind_eq_ok.mpr ⟨clients, built, bind_eq_ok.mpr ⟨made, written, rfl⟩⟩

/-- The name of a support class is declared by the head and the text of the support classes only. -/
theorem count_declared {made : Parts} (h : partsOf description settings = .ok made)
    (support : SupportClass) : (made.lines.filterMap declared?).count support.name =
      (made.header.filterMap declared?).count support.name
        + (made.support.filterMap declared?).count support.name := by
  obtain ⟨clients, built, h⟩ := bind_eq_ok.mp h
  obtain ⟨dialect, _, h⟩ := bind_eq_ok.mp h
  obtain ⟨blocks, blocked, h⟩ := bind_eq_ok.mp h
  cases h
  have none {lines : List String} (h : ∀ line ∈ lines, declared? line ≠ some support.name) :
      (lines.filterMap declared?).count support.name = 0 := by
    refine List.count_eq_zero.mpr fun member => ?_
    obtain ⟨line, inside, declares⟩ := List.mem_filterMap.mp member
    exact h line inside declares
  have apart (line : String) (h : line ∈ (declared clients).flatMap Declaration.lines
      ++ blocks.flatten.flatten) : declared? line ≠ some support.name :=
    declared?_ne_support built (mapM_eq_ok.mp blocked) h support
  have models : ∀ line ∈ (if settings.generateModels then
      (declared clients).flatMap Declaration.lines else []),
      declared? line ≠ some support.name := by
    split
    · exact fun line inside => apart line (List.mem_append_left _ inside)
    · simp
  have blank : ∀ line ∈ ["", ""], declared? line ≠ some support.name := by
    have silent : declared? "" = Option.none := by decide
    simp [silent]
  have written : ∀ line ∈ blocks.flatten.flatMap (fun block => block ++ ["", ""]),
      declared? line ≠ some support.name := by
    intro line inside
    obtain ⟨block, hblock, inside⟩ := List.mem_flatMap.mp inside
    rcases List.mem_append.mp inside with inside | inside
    · exact apart line (List.mem_append_right _ (List.mem_flatten.mpr ⟨block, hblock, inside⟩))
    · exact blank line inside
  simp only [Parts.lines, List.filterMap_append, List.count_append]
  have models := none models
  have written := none written
  rw [declared, shown] at models
  omega

/-- Settings under which only interfaces appear, with a method that returns a stream inside of a
response object. -/
def streamedInterface : Settings :=
  { Operation.streamedAndWrapped with generateClasses := false, generateInterfaces := true }

theorem streamed_response_declared_once :
    ∃ clients, (Client.ofDescription { operations := [Operation.listing] }
        streamedInterface).result = .ok clients ∧
      DeclaresOnce (SupportClass.linesOf (requiredSupport (shown clients)))
        .disposableResponse := by
  obtain ⟨settings, hs⟩ : ∃ settings, settings = streamedInterface := ⟨_, rfl⟩
  obtain ⟨description, hd⟩ : ∃ description : Description,
    description = { operations := [Operation.listing] } := ⟨_, rfl⟩
  obtain ⟨made, hmade⟩ : ∃ made, partsOf description settings = .ok made :=
    exists_eq_ok (by rw [hd, hs]; decide +kernel)
  have named : (partsOf description settings).toOption.any (fun made =>
      made.clients.any fun block =>
        (Code.names block).contains SupportClass.disposableResponse.name) = true := by
    rw [hd, hs]
    decide +kernel
  have checked : settings.checked = .ok settings := by
    rw [hs]
    rfl
  have noNames : settings.typeNames = [] := by
    rw [hs]
    rfl
  obtain ⟨clients, dialect, blocks, built, versioned, blocked, _, once, _⟩ :=
    support_declared_once checked (generate_eq_text hmade)
  have written : made.clients = blocks.flatten := by
    rw [partsOf, built, ok_bind, parts, versioned, ok_bind, mapM_eq_ok.mpr blocked] at hmade
    cases hmade
    rfl
  rw [hmade] at named
  obtain ⟨block, hblock, named⟩ := List.any_eq_true.mp named
  rw [← hd, ← hs]
  refine ⟨clients, built, once block (written ▸ hblock) _ (List.contains_iff_mem.mp named) ?_⟩
  rw [noNames]
  exact nofun

/-- Settings that give the name of one support class and assign to that of another. -/
def naming : Settings :=
  { Settings.standard with
    wrapResponses := true
    configurationType := some "JsonArrayStream"
    additionalImports := ["ApiResponse = object"] }

/-- A name that the settings give is written as it stands, without the class of that name, and so is
an additional import, beside the class. -/
theorem settings_name_undeclared :
    naming.checked = .ok naming ∧
      ∃ made : Parts, (generate { operations := [.answering "Pet" "Get" []] } naming).result =
          .ok (Module.text made.lines) ∧
        (∃ block ∈ made.clients, SupportClass.arrayStream.name ∈ Code.names block ∧
          SupportClass.response.name ∈ Code.names block) ∧
        SupportClass.arrayStream.name ∉ made.lines.filterMap declared? ∧
        (made.lines.filterMap declared?).count SupportClass.response.name = 2 := by
  obtain ⟨description, hd⟩ : ∃ description : Description,
    description = { operations := [.answering "Pet" "Get" []] } := ⟨_, rfl⟩
  obtain ⟨made, hmade⟩ : ∃ made, partsOf description naming = .ok made :=
    exists_eq_ok (by rw [hd]; decide +kernel)
  -- The first eight lines of the class end with the signature of its method.
  have named : (partsOf description naming).toOption.any (fun made =>
      made.clients.any fun block =>
        (Code.readLines (.plain []) (block.take 8)).2 == .plain []
          && (Code.names (block.take 8)).contains SupportClass.arrayStream.name
          && (Code.names (block.take 8)).contains SupportClass.response.name) = true := by
    rw [hd]
    decide +kernel
  have counts : (partsOf description naming).toOption.all (fun made =>
      ((made.header ++ made.support).filterMap declared?).count SupportClass.arrayStream.name == 0
        && ((made.header ++ made.support).filterMap declared?).count SupportClass.response.name
          == 2) = true := by
    rw [hd]
    decide +kernel
  rw [hmade] at named counts
  refine ⟨rfl, made, hd ▸ generate_eq_text hmade, ?_, ?_⟩
  · obtain ⟨block, hblock, named⟩ := List.any_eq_true.mp named
    simp only [Bool.and_eq_true, beq_iff_eq, List.contains_iff_mem] at named
    obtain ⟨⟨closed, stream⟩, response⟩ := named
    have within {name : String} (h : name ∈ Code.names (block.take 8)) :
        name ∈ Code.names block := by
      rw [← List.take_append_drop 8 block]
      exact (Code.mem_names_append closed).mpr (.inl h)
    exact ⟨block, hblock, within stream, within response⟩
  · simp only [Option.all_some, Except.toOption, List.filterMap_append, List.count_append,
      Bool.and_eq_true, beq_iff_eq] at counts
    rw [← List.count_eq_zero, count_declared hmade, count_declared hmade]
    exact counts

end Module

end ApiBinding
