import ApiBinding.Client.Render
import ApiBinding.Proofs.Code.Method
import ApiBinding.Proofs.Module.Models
import ApiBinding.Settings.Read

/-!
What the classes and interfaces of clients name: of the support classes, those that their methods
rely on, as long as the settings give no other name of one.
-/

namespace ApiBinding

/-- The names of classes that settings give. They are written as they stand. -/
def Settings.typeNames (settings : Settings) : List String :=
  settings.configurationType.toList ++ settings.baseClass.toList ++ settings.baseInterface.toList
    ++ settings.transportType.toList

namespace Code

open Text (joined)

variable {support : List SupportClass}

theorem isPathChar_of_isName {cs : List Char} (h : Setting.isName cs = true) :
    cs.all isPathChar = true := by
  have start (c : Char) (h : Setting.isNameStart c = true) : isPathChar c = true := by
    rw [Setting.isNameStart, Bool.or_eq_true] at h
    rcases h with h | h
    · have split : c.isAlphanum = (c.isAlpha || c.isDigit) := rfl
      exact isPathChar_of_isAlphanum (by rw [split, h]; rfl)
    · simp [isPathChar, h]
  have inside (c : Char) (h : Setting.isNameChar c = true) : isPathChar c = true := by
    rw [Setting.isNameChar, Bool.or_eq_true] at h
    rcases h with h | h <;> simp [isPathChar, h]
  cases cs with
  | nil => rfl
  | cons c cs =>
    rw [Setting.isName, Bool.and_eq_true] at h
    rw [List.all_cons, start c h.1, all_mono h.2 inside]
    rfl

/-- A name that settings may give is read to its end as a path. -/
theorem read_typeName {s : String} (h : Setting.isTypeName s = true) :
    ∃ path, (read (.plain []) s.toList).2 = .plain path := by
  have plain : (Setting.withoutLastFeed s.toList).all isPathChar = true := by
    have pieces : ∀ piece ∈ Text.piecesFrom (· == '.') [] (Setting.withoutLastFeed s.toList),
        piece.all isPathChar = true :=
      fun piece member => isPathChar_of_isName (List.all_eq_true.mp h piece member)
    refine all_mono (Text.all_of_piecesFrom pieces).1 fun c either => ?_
    rw [Bool.or_eq_true, beq_iff_eq] at either
    rcases either with rfl | path
    · rfl
    · exact path
  unfold Setting.withoutLastFeed at plain
  split at plain
  next feed =>
    obtain ⟨rest, whole⟩ := List.getLast?_eq_some_iff.mp feed
    rw [whole, List.dropLast_concat] at plain
    rw [whole, read_append, read_path plain]
    exact ⟨[], rfl⟩
  next => exact ⟨_, by rw [read_path plain]⟩

theorem says_of_names {s : String} {path : List Char}
    (ends : (read (.plain []) s.toList).2 = .plain path)
    (allowed : ∀ name ∈ names [s], Allows support name) : Says support s := by
  have whole : names [s] = (read (.plain []) s.toList).1 ++ found path := by
    simp [names, readLines, readLine, ends, endLine]
  rw [whole] at allowed
  refine ⟨fun name member => allowed name (List.mem_append_left _ member), ?_⟩
  rw [ends]
  exact fun name member => allowed name (List.mem_append_right _ member)

/-- No name of a support class ends as the names of interfaces do. -/
theorem allows_interface (raw : String) :
    Allows [] (Identifier.ofRaw .type raw ++ Client.interfaceEnding) := by
  intro member
  have known : ∀ name ∈ SupportClass.all.map SupportClass.name,
      ¬Client.interfaceEnding.toList <:+ name.toList := by decide
  refine absurd ?_ (known _ member)
  rw [String.toList_append]
  exact List.suffix_append ..

theorem says_interface (raw : String) :
    Says [] (Identifier.ofRaw .type raw ++ Client.interfaceEnding) := by
  refine says_of_isAlphanum ?_ (allows_interface raw)
  rw [String.toList_append, List.all_append, Identifier.all_type]
  rfl

variable {shape : Constructor}

theorem says_configuration
    (given : ∀ type ∈ shape.configurationType, Says support type) :
    ∀ s ∈ (Client.configurationPart shape).1 ++ (Client.configurationPart shape).2,
      Says support s := by
  have passed : Says [] (bodyIndent ++ "super().__init__(configuration)") := by decide
  have kept : Says [] (bodyIndent ++ "self.configuration = configuration") := by decide
  have begun : Says [] (bodyIndent ++ "super().__init__()") := by decide
  unfold Client.configurationPart
  split
  next type configured =>
    have opens : Closes [] "configuration: " := by decide
    have typed := opens.of_nil.append (given type configured)
    split
    · simpa using ⟨typed, passed.of_nil⟩
    · simpa using ⟨typed, kept.of_nil⟩
  next =>
    split
    · simpa using begun.of_nil
    · simp

theorem says_transport (given : Says support shape.transportType) :
    ∀ s ∈ (Client.transportPart shape).1 ++ (Client.transportPart shape).2, Says support s := by
  unfold Client.transportPart
  split
  next =>
    have opens : Closes [] "transport: " := by decide
    have kept : Says [] (bodyIndent ++ "self._transport = transport") := by decide
    simpa using ⟨opens.of_nil.append given, kept.of_nil⟩
  next =>
    have opens : Closes [] (bodyIndent ++ "self._transport = ") := by decide
    have called : Joins [] "()" := by decide
    simpa using ((opens.of_nil.append given).join called.of_nil).toSays

theorem says_closingLines {className : String} (named : Says [] className) :
    ∀ line ∈ Client.closingLines className, Says [] line := by
  have opens : Closes [] "    async def __aenter__(self) -> " := by decide
  have closes : Joins [] ":" := by decide
  have entered := ((opens.append named).join closes).toSays
  have first : ∀ line ∈ ["", "    async def aclose(self) -> None:",
      "        await self._transport.aclose()", ""], Says [] line := by decide
  have last : ∀ line ∈ ["        return self", "",
      "    async def __aexit__(self, *args: Any) -> None:", "        await self.aclose()"],
      Says [] line := by decide
  have whole : ∀ line ∈ ["", "    async def aclose(self) -> None:",
      "        await self._transport.aclose()", ""]
      ++ ["    async def __aenter__(self) -> " ++ className ++ ":"]
      ++ ["        return self", "",
      "    async def __aexit__(self, *args: Any) -> None:", "        await self.aclose()"],
      Says [] line := by
    simp only [List.forall_mem_append, List.forall_mem_singleton]
    exact ⟨⟨first, entered⟩, last⟩
  exact whole

theorem says_given {base : Option String} (h : ∀ name ∈ base, Says support name) :
    ∀ s ∈ Client.given base, Says support s := by
  intro s member
  obtain ⟨given, _⟩ := Option.mem_filter_iff.mp (Option.mem_toList.mp member)
  exact h s given

/-- The line that begins a class, with its bases if there are any. -/
theorem says_opening {name : String} {bases : List String} (called : Says [] name)
    (h : ∀ base ∈ bases, Says support base) :
    Says support (if bases.isEmpty then "class " ++ name ++ ":"
      else "class " ++ name ++ "(" ++ joined ", " bases ++ "):") := by
  have opens : Closes [] "class " := by decide
  have alone : Joins [] ":" := by decide
  have begins : Joins [] "(" := by decide
  have ends : Joins [] "):" := by decide
  have comma : Joins [] ", " := by decide
  have opened := opens.append called
  split
  · exact (opened.join alone).toSays.of_nil
  · exact (((opened.join begins).of_nil.append (says_joined comma.of_nil h)).join
      ends.of_nil).toSays

theorem reads_spaced {blocks : List (List String)} (h : ∀ block ∈ blocks, Reads support block) :
    Reads support (Client.spaced blocks) := by
  have empty : Says [] "" := by decide
  fun_induction Client.spaced blocks with
  | case1 => exact .nil
  | case2 block => exact h block (List.mem_singleton_self block)
  | case3 block rest _ ih =>
    rw [List.forall_mem_cons] at h
    exact h.1.append (empty.of_nil.reads.append (ih h.2))

/-- Whether a client names no support classes but the given ones. -/
structure ClientFits (support : List SupportClass) (client : Client) : Prop where
  className : Says [] client.className
  interfaceName : Says [] client.interfaceName
  baseClass : ∀ name ∈ client.baseClass, Says support name
  baseInterface : ∀ name ∈ client.baseInterface, Says support name
  configuration : ∀ type ∈ client.constructor.configurationType, Says support type
  transport : Says support client.constructor.transportType
  methods : ∀ method ∈ client.methods, method.support ⊆ support ∧
    ∃ (operation : Operation) (settings : Settings), operation.toMethod settings = .ok method

variable {client : Client}

theorem ClientFits.says_constructorLines (fits : ClientFits support client) :
    ∀ line ∈ client.constructorLines, Says support line := by
  have self : Says [] "self" := by decide
  have opens : Closes [] "    def __init__(" := by decide
  have closes : Joins [] ") -> None:" := by decide
  have comma : Joins [] ", " := by decide
  have configuration := says_configuration fits.configuration
  have transport := says_transport fits.transport
  rw [List.forall_mem_append] at configuration transport
  unfold Client.constructorLines
  dsimp only
  simp only [List.forall_mem_append, List.forall_mem_cons]
  refine ⟨⟨⟨?_, configuration.2⟩, transport.2⟩, ?_⟩
  · refine ((opens.of_nil.append (says_joined comma.of_nil ?_)).join closes.of_nil).toSays
    simp only [List.forall_mem_append, List.forall_mem_singleton]
    exact ⟨⟨self.of_nil, configuration.1⟩, transport.1⟩
  · split
    · exact fun line member => (says_closingLines fits.className line member).of_nil
    · simp

variable {dialect : Dialect} {lines : List String}

theorem ClientFits.reads_interfaceLines (fits : ClientFits support client)
    (h : client.interfaceLines dialect = .ok lines) : Reads support lines := by
  obtain ⟨blocks, written, h⟩ := bind_eq_ok.mp h
  cases h
  have protocol : Says [] "Protocol" := by decide
  have bases : ∀ base ∈ Client.given client.baseInterface ++ ["Protocol"], Says support base := by
    rw [List.forall_mem_append, List.forall_mem_singleton]
    exact ⟨says_given fits.baseInterface, protocol.of_nil⟩
  have opening := says_opening fits.interfaceName bases
  rw [if_neg (by simp)] at opening
  refine opening.reads.append (reads_spaced fun block member => ?_)
  obtain ⟨method, given, lines⟩ := exists_of_forall₂ (mapM_eq_ok.mp written) member
  obtain ⟨carried, operation, settings, made⟩ := fits.methods method given
  exact (reads_methodInterface made lines).mono carried

theorem ClientFits.reads_classLines (fits : ClientFits support client)
    (h : client.classLines dialect = .ok lines) : Reads support lines := by
  obtain ⟨blocks, written, h⟩ := bind_eq_ok.mp h
  cases h
  have bases : ∀ base ∈ Client.given client.baseClass
      ++ (if client.buildsInterface then [client.interfaceName] else []), Says support base := by
    rw [List.forall_mem_append]
    refine ⟨says_given fits.baseClass, ?_⟩
    split
    · rw [List.forall_mem_singleton]
      exact fits.interfaceName.of_nil
    · simp
  have opening := says_opening fits.className bases
  have start : ∀ line ∈ ["    base_url: str = ''", ""], Says [] line := by decide
  have head := (opening.reads.append (reads_of_lines start).of_nil).append
    (reads_of_lines fits.says_constructorLines)
  refine head.append (ReadsOnly.flatten fun block member => ?_)
  obtain ⟨body, inside, rfl⟩ := List.mem_map.mp member
  have empty : Says [] "" := by decide
  obtain ⟨method, given, lines⟩ := exists_of_forall₂ (mapM_eq_ok.mp written) inside
  obtain ⟨carried, operation, settings, made⟩ := fits.methods method given
  exact empty.of_nil.reads.append ((reads_method made lines).mono carried)

/-- The blocks that a part of a client comes to, if the part is built. -/
def builtPart (builds : Bool) (written : Except Failure (List String)) :
    Except Failure (List (List String)) :=
  if builds then written.map fun lines => [lines] else .ok []

theorem blocks_eq (client : Client) (dialect : Dialect) :
    client.blocks dialect = (do
      let interfaces ← builtPart client.buildsInterface (client.interfaceLines dialect)
      let classes ← builtPart client.buildsClass (client.classLines dialect)
      return (if client.showsInterface then interfaces else [])
        ++ (if client.showsClass then classes else [])) := by
  unfold Client.blocks builtPart
  cases client.buildsInterface <;> cases client.buildsClass <;>
    cases client.interfaceLines dialect <;> cases client.classLines dialect <;> rfl

theorem written_of_builtPart {builds : Bool} {written : Except Failure (List String)}
    {blocks : List (List String)} (h : builtPart builds written = .ok blocks) :
    ∀ block ∈ blocks, written = .ok block := by
  intro block member
  unfold builtPart at h
  split at h
  next =>
    obtain ⟨lines, same, rfl⟩ := map_eq_ok.mp h
    rwa [List.mem_singleton.mp member]
  next =>
    cases h
    cases member

/-- The blocks of a client are its interface and its class, as far as these are shown. -/
theorem lines_of_blocks {blocks : List (List String)} (h : client.blocks dialect = .ok blocks) :
    ∀ block ∈ blocks,
      (client.showsInterface = true ∧ client.interfaceLines dialect = .ok block) ∨
        (client.showsClass = true ∧ client.classLines dialect = .ok block) := by
  rw [blocks_eq] at h
  obtain ⟨interfaces, interfaced, h⟩ := bind_eq_ok.mp h
  obtain ⟨classes, classed, h⟩ := bind_eq_ok.mp h
  cases h
  intro block member
  rcases List.mem_append.mp member with member | member
  · split at member
    next shows => exact .inl ⟨shows, written_of_builtPart interfaced block member⟩
    next => cases member
  · split at member
    next shows => exact .inr ⟨shows, written_of_builtPart classed block member⟩
    next => cases member

/-- What is written for a client names no support class but those that the client names. -/
theorem ClientFits.reads_blocks (fits : ClientFits support client) {blocks : List (List String)}
    (h : client.blocks dialect = .ok blocks) : ∀ block ∈ blocks, Reads support block := by
  intro block member
  rcases lines_of_blocks h block member with ⟨_, written⟩ | ⟨_, written⟩
  · exact fits.reads_interfaceLines written
  · exact fits.reads_classLines written

theorem exists_clientName (settings : Settings) (tag : String) :
    ∃ raw, settings.clientName tag = Identifier.ofRaw .type raw := by
  unfold Settings.clientName Settings.clientNameFor
  exact ⟨_, rfl⟩

theorem fits_ofGroup {settings : Settings} {tag : String} {methods : List Method}
    (named : ∀ name ∈ settings.typeNames, Says support name)
    (made : ∀ method ∈ methods, method.support ⊆ support ∧
      ∃ (operation : Operation) (settings : Settings), operation.toMethod settings = .ok method) :
    ClientFits support (Client.ofGroup settings tag methods) := by
  obtain ⟨raw, same⟩ := exists_clientName settings tag
  have usual : Says [] usualTransport := by decide
  simp only [Settings.typeNames, List.forall_mem_append, Option.mem_toList] at named
  obtain ⟨⟨⟨configuration, baseClass⟩, baseInterface⟩, transport⟩ := named
  refine ⟨?_, ?_, baseClass, baseInterface, configuration, ?_, made⟩
  · rw [Client.ofGroup_className, same]
    exact says_type raw
  · rw [Client.ofGroup_interfaceName, same]
    exact says_interface raw
  · change Says support (settings.transportType.getD usualTransport)
    cases chosen : settings.transportType with
    | none => exact usual.of_nil
    | some type => exact transport type chosen

theorem support_subset {method : Method} (given : method ∈ client.methods) :
    method.support ⊆ client.support := by
  intro one member
  have known : one ∈ SupportClass.all := by cases one <;> decide
  refine List.mem_filter.mpr ⟨known, List.any_eq_true.mpr ⟨method, given, ?_⟩⟩
  exact List.contains_iff_mem.mpr member

end Code

end ApiBinding
