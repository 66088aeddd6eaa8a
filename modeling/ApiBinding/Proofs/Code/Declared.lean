import ApiBinding.Module
import ApiBinding.Proofs.Code.Client

/-!
The names that lines of code declare or import. A class or an interface declares its own name and
nothing else, and so does the declaration of a type.
-/

namespace ApiBinding.Code

open Text (quoted joined)

def isWordChar (c : Char) : Bool := isPathChar c && c != '.'

/-- The name that a line declares at the left margin: that of a class, or one that is assigned
to. -/
def declared? (line : String) : Option String :=
  let word := line.toList.takeWhile isWordChar
  let rest := line.toList.dropWhile isWordChar
  if word.isEmpty then none
  else if (Text.after? " = ".toList rest).isSome then some (String.ofList word)
  else if word = "class".toList then some (String.ofList ((rest.drop 1).takeWhile isWordChar))
  else none

/-- The paths of names in a text. -/
def paths (cs : List Char) : List String :=
  ((Text.pieces (fun c => !isPathChar c) cs).filter (!·.isEmpty)).map String.ofList

/-- The names that an import at the left margin binds. -/
def imported (line : String) : List String :=
  match Text.after? "import ".toList line.toList, Text.after? "from ".toList line.toList with
  | some modules, _ => (paths modules).map fun path => rootOf path.toList
  | none, some origin => ((paths origin).dropWhile (· != "import")).drop 1
  | none, none => []

/-- The names that a line binds at the left margin. -/
def bound (line : String) : List String :=
  match declared? line with
  | some name => [name]
  | none => imported line

example : bound "from urllib.parse import quote, unquote" = ["quote", "unquote"] := by decide

section

variable {line : String} {word rest : List Char}

theorem declared?_eq (text : line.toList = word ++ rest) (whole : word.all isWordChar = true)
    (stops : rest.head?.any isWordChar = false) :
    declared? line =
      if word.isEmpty then none
      else if (Text.after? " = ".toList rest).isSome then some (String.ofList word)
      else if word = "class".toList then some (String.ofList ((rest.drop 1).takeWhile isWordChar))
      else none := by
  have whole : ∀ c ∈ word, isWordChar c = true := List.all_eq_true.mp whole
  have ends : rest.takeWhile isWordChar = [] ∧ rest.dropWhile isWordChar = rest := by
    cases rest with
    | nil => exact ⟨rfl, rfl⟩
    | cons c rest => simp_all
  rw [declared?, text, List.takeWhile_append_of_pos whole, List.dropWhile_append_of_pos whole,
    ends.1, ends.2, List.append_nil]

/-- A line that begins with a space declares nothing. -/
theorem declared?_indented (h : line.toList.head? = some ' ') : declared? line = none := by
  have stops : line.toList.head?.any isWordChar = false := by
    rw [h]
    decide
  exact declared?_eq (List.nil_append _).symm rfl stops

theorem declared?_assigned {name : String} (h : name.toList.all isWordChar = true)
    (filled : name ≠ "") (text : line.toList = name.toList ++ (" = ".toList ++ rest)) :
    declared? line = some name := by
  have after : Text.after? " = ".toList (" = ".toList ++ rest) = some rest := Text.after?_append _ _
  rw [declared?_eq text h rfl, after]
  simp [filled]

theorem declared?_class {name : String} (h : name.toList.all isWordChar = true) (stop : Char)
    (after : List Char) (stops : isWordChar stop = false ∧ stop ≠ '=')
    (text : line.toList = "class ".toList ++ (name.toList ++ stop :: after)) :
    declared? line = some name := by
  have ends : (name.toList ++ stop :: after).takeWhile isWordChar = name.toList := by
    rw [List.takeWhile_append_of_pos (List.all_eq_true.mp h), List.takeWhile_cons, stops.1]
    simp
  have begins : Text.after? " = ".toList (' ' :: (name.toList ++ stop :: after)) = none := by
    cases hname : name.toList with
    | nil => simp [Text.after?, Ne.symm stops.2]
    | cons d name =>
      have first : d ≠ '=' := by
        rintro rfl
        rw [hname] at h
        cases h
      simp [Text.after?, Ne.symm first]
  have text : line.toList = "class".toList ++ ' ' :: (name.toList ++ stop :: after) := text
  rw [declared?_eq text (by decide) rfl, begins]
  simp [ends]

end

theorem isWordChar_of_isAlphanum {c : Char} (h : c.isAlphanum = true) : isWordChar c = true := by
  have other : c ≠ '.' := by
    rintro rfl
    cases h
  simp [isWordChar, isPathChar, h, other]

theorem all_isWordChar_type (raw : String) :
    (Identifier.ofRaw .type raw).toList.all isWordChar = true :=
  all_mono (Identifier.all_type raw) fun _ => isWordChar_of_isAlphanum

/-- Whether a line begins with a space. -/
def Indented (line : String) : Prop := line.toList.head? = some ' '

instance (line : String) : Decidable (Indented line) := inferInstanceAs (Decidable (_ = _))

/-- The form in which a literal is read without being taken apart. -/
theorem indented_ofList {cs : List Char} (h : cs.head? = some ' ') :
    Indented (String.ofList cs) := by
  rw [Indented, String.toList_ofList, h]

theorem Indented.append {lead : String} (h : Indented lead) (s : String) :
    Indented (lead ++ s) := by
  rw [Indented, String.toList_append, List.head?_append, h]
  rfl

/-- Whether a line is empty or begins with a space. -/
def IsInner (line : String) : Prop := line = "" ∨ Indented line

instance (line : String) : Decidable (IsInner line) := inferInstanceAs (Decidable (_ ∨ _))

theorem isInner_empty : IsInner "" := .inl rfl

theorem Indented.isInner {line : String} (h : Indented line) : IsInner line := .inr h

theorem IsInner.binds_nothing {line : String} (h : IsInner line) : bound line = [] := by
  have silent : declared? line = none := by
    rcases h with rfl | h
    · decide
    · exact declared?_indented h
  have noImport {c : Char} {start : List Char} (other : c ≠ ' ') :
      Text.after? (c :: start) line.toList = none := by
    rcases h with rfl | h
    · rfl
    · obtain ⟨rest, text⟩ := List.head?_eq_some_iff.mp h
      simp [text, Text.after?, other]
  have noModule : Text.after? "import ".toList line.toList = none := noImport (by decide)
  have noOrigin : Text.after? "from ".toList line.toList = none := noImport (by decide)
  rw [bound, silent]
  simp only [imported, noModule, noOrigin]

theorem declared?_of_bound {line : String} (h : bound line = []) : declared? line = none := by
  unfold bound at h
  split at h
  next => cases h
  next silent => exact silent

/-- Whether lines declare a name once and bind no other. -/
structure Declares (name : String) (lines : List String) : Prop where
  declared : lines.filterMap declared? = [name]
  bound : lines.flatMap bound = [name]

theorem declares_of_opening {line name : String} {lines : List String}
    (opening : declared? line = some name) (silent : ∀ line ∈ lines, bound line = []) :
    Declares name (line :: lines) where
  declared := by
    have others := List.filterMap_eq_nil_iff.mpr fun line h => declared?_of_bound (silent line h)
    rw [List.filterMap_cons, opening, others]
  bound := by
    rw [List.flatMap_cons, List.flatMap_eq_nil_iff.mpr silent, bound, opening, List.append_nil]

theorem isInner_docstring (summary : String) (deprecated : Bool) :
    ∀ line ∈ Docstring.lines bodyIndent summary deprecated, IsInner line := by
  have further (line : String) : IsInner (Docstring.furtherLine bodyIndent line) := by
    unfold Docstring.furtherLine
    split
    · exact .inl rfl
    · exact .inr (Indented.append (by decide) line)
  have quoted (line : String) : Indented (bodyIndent ++ "\"\"\"" ++ line) :=
    Indented.append (by decide) line
  unfold Docstring.lines
  split
  · simp
  · rw [List.forall_mem_singleton]
    exact .inr ((quoted _).append _)
  · simp only [List.forall_mem_append, List.forall_mem_cons, List.forall_mem_map,
      List.not_mem_nil, false_implies, implies_true, and_true]
    exact ⟨⟨.inr (quoted _), fun line _ => further line⟩, by decide⟩

theorem isInner_assignments {arguments : List Argument} (target : String)
    (value : Argument → String) :
    ∀ line ∈ arguments.flatMap fun argument => argument.assignment target (value argument),
      IsInner line := by
  intro line member
  obtain ⟨argument, _, member⟩ := List.mem_flatMap.mp member
  have indent : Indented bodyIndent := by decide
  unfold Argument.assignment at member
  dsimp only at member
  split at member
  · simp only [List.mem_cons, List.not_mem_nil, or_false] at member
    rcases member with rfl | rfl
    · exact .inr (((indent.append _).append _).append _)
    · exact .inr ((indent.append _).append _)
  · obtain rfl := List.mem_singleton.mp member
    exact .inr (indent.append _)

theorem isInner_caseLines {c : StatusCase} {mode : ResponseMode} {style : TypeHint.Style}
    {lines : List String} (h : c.lines mode style = .ok lines) : ∀ line ∈ lines, IsInner line := by
  have indented {indent : String} (blank : Indented indent) :
      ∀ line ∈ (c.statements mode style).map (indent ++ ·), IsInner line := by
    rw [List.forall_mem_map]
    exact fun statement _ => .inr (blank.append statement)
  unfold StatusCase.lines at h
  dsimp only at h
  split at h
  · cases h
    exact indented (by decide)
  · split at h
    next test _ =>
      cases h
      have condition : Indented ("            if " ++ test.condition) := .append (by decide) _
      rw [List.forall_mem_cons]
      exact ⟨.inr (condition.append _), indented (by decide)⟩
    next => cases h

theorem isInner_responseLines {mode : ResponseMode} {cases : List StatusCase}
    {style : TypeHint.Style} {lines : List String}
    (h : responseLines mode cases style = .ok lines) : ∀ line ∈ lines, IsInner line := by
  obtain ⟨caseLines, hcases, h⟩ := bind_eq_ok.mp h
  have indent : Indented "            " := by decide
  cases h
  simp only [List.forall_mem_append]
  refine ⟨⟨⟨by decide, ?_⟩, ?_⟩, by decide⟩
  · intro line member
    obtain ⟨block, inside, member⟩ := List.mem_flatten.mp member
    obtain ⟨c, _, written⟩ := exists_of_forall₂ (mapM_eq_ok.mp hcases) inside
    exact isInner_caseLines written line member
  · split
    · simp
    · rw [List.forall_mem_cons, List.forall_mem_singleton]
      exact ⟨by decide, .inr (indent.append _)⟩

theorem isInner_step {step : Step} {style : TypeHint.Style} {lines : List String}
    (h : step.lines style = .ok lines) : ∀ line ∈ lines, IsInner line := by
  have indent : Indented bodyIndent := by decide
  have assigned (lead s : String) : ∀ line ∈ [bodyIndent ++ lead ++ s], IsInner line := by
    rw [List.forall_mem_singleton]
    exact .inr ((indent.append lead).append s)
  cases step with
  | url path arguments =>
    cases h
    exact assigned _ _
  | query arguments =>
    cases h
    rw [List.forall_mem_cons]
    exact ⟨.inr (indent.append _), isInner_assignments _ _⟩
  | headers arguments accept contentType =>
    cases h
    unfold headerLines
    dsimp only
    rw [List.forall_mem_cons]
    exact ⟨.inr (((indent.append _).append _).append _), isInner_assignments _ _⟩
  | wholeBody argument format =>
    cases h
    exact assigned _ _
  | streamedBody argument =>
    cases h
    exact assigned _ _
  | request httpMethod viaFactory hasQuery hasContent =>
    cases h
    rw [List.forall_mem_singleton]
    exact .inr (((((indent.append _).append _).append _).append _).append _)
  | send =>
    cases h
    decide
  | response mode cases result => exact isInner_responseLines h

section

variable {method : Method} {dialect : Dialect} {lines : List String}

theorem isInner_signature (method : Method) (dialect : Dialect) :
    IsInner (method.signature dialect) := by
  have opens : Indented ("    async def " ++ method.name) := .append (by decide) _
  exact .inr (((((opens.append _).append _).append _).append _).append _)

theorem isInner_method {overrides : Bool} (h : method.lines dialect overrides = .ok lines) :
    ∀ line ∈ lines, IsInner line := by
  obtain ⟨docstring, described, h⟩ := bind_eq_ok.mp h
  obtain ⟨steps, written, h⟩ := bind_eq_ok.mp h
  cases h
  obtain ⟨summary, same⟩ := docstring_eq_ok described
  have documented : ∀ line ∈ docstring, IsInner line :=
    same ▸ isInner_docstring summary method.deprecated
  simp only [List.forall_mem_append, List.forall_mem_cons]
  refine ⟨⟨by cases overrides <;> decide, isInner_signature method dialect,
    documented⟩, fun line member => ?_⟩
  obtain ⟨block, inside, member⟩ := List.mem_flatten.mp member
  obtain ⟨step, _, lines⟩ := exists_of_forall₂ (mapM_eq_ok.mp written) inside
  exact isInner_step lines line member

theorem isInner_methodInterface (h : method.interfaceLines dialect = .ok lines) :
    ∀ line ∈ lines, IsInner line := by
  obtain ⟨docstring, described, h⟩ := bind_eq_ok.mp h
  cases h
  obtain ⟨summary, same⟩ := docstring_eq_ok described
  have documented : ∀ line ∈ docstring, IsInner line :=
    same ▸ isInner_docstring summary method.deprecated
  simp only [List.forall_mem_append, List.forall_mem_cons]
  exact ⟨⟨isInner_signature method dialect, documented⟩, by decide⟩

end

section

variable {client : Client} {dialect : Dialect} {lines : List String}

theorem isInner_spaced {blocks : List (List String)}
    (h : ∀ block ∈ blocks, ∀ line ∈ block, IsInner line) :
    ∀ line ∈ Client.spaced blocks, IsInner line := by
  fun_induction Client.spaced blocks with
  | case1 => simp
  | case2 block => exact h block (List.mem_singleton_self block)
  | case3 block rest _ ih =>
    rw [List.forall_mem_cons] at h
    rw [List.forall_mem_append, List.forall_mem_cons]
    exact ⟨h.1, .inl rfl, ih h.2⟩

theorem isInner_constructor (client : Client) : ∀ line ∈ client.constructorLines, IsInner line := by
  have indent : Indented bodyIndent := by decide
  have configure : ∀ line ∈ (Client.configurationPart client.constructor).2, IsInner line := by
    unfold Client.configurationPart
    split <;> dsimp only <;> split <;> decide
  have connect : ∀ line ∈ (Client.transportPart client.constructor).2, IsInner line := by
    unfold Client.transportPart
    split <;> dsimp only
    · decide
    · rw [List.forall_mem_singleton]
      exact .inr (((indent.append _).append _).append _)
  have closing : ∀ line ∈ Client.closingLines client.className, IsInner line := by
    have entered : Indented ("    async def __aenter__(self) -> " ++ client.className) :=
      .append (by decide) _
    unfold Client.closingLines
    simp only [List.forall_mem_cons]
    exact ⟨by decide, by decide, by decide, by decide, .inr (entered.append _), by decide,
      by decide, by decide, by decide⟩
  have opens : Indented "    def __init__(" := by decide
  unfold Client.constructorLines
  dsimp only
  simp only [List.forall_mem_append, List.forall_mem_cons]
  refine ⟨⟨⟨.inr ((opens.append _).append _), configure⟩, connect⟩, ?_⟩
  split
  · exact closing
  · simp

/-- The line that begins a class declares its name. -/
theorem declared?_opening {name : String} (h : name.toList.all isWordChar = true)
    (bases : List String) :
    declared? (if bases.isEmpty then "class " ++ name ++ ":"
      else "class " ++ name ++ "(" ++ joined ", " bases ++ "):") = some name := by
  split
  · refine declared?_class h ':' [] (by decide) ?_
    simp only [String.toList_append, List.append_assoc]
    rfl
  · refine declared?_class h '(' (joined ", " bases ++ "):").toList (by decide) ?_
    simp only [String.toList_append, List.append_assoc]
    rfl

example : declared? "class PetClient(ClientBase):" = some "PetClient" := by decide

theorem declares_interface (h : client.interfaceName.toList.all isWordChar = true)
    (written : client.interfaceLines dialect = .ok lines) :
    Declares client.interfaceName lines := by
  obtain ⟨blocks, hblocks, written⟩ := bind_eq_ok.mp written
  cases written
  have opening := declared?_opening h (Client.given client.baseInterface ++ ["Protocol"])
  rw [if_neg (by simp)] at opening
  have inner : ∀ line ∈ Client.spaced blocks, IsInner line := by
    refine isInner_spaced fun block member => ?_
    obtain ⟨method, _, lines⟩ := exists_of_forall₂ (mapM_eq_ok.mp hblocks) member
    exact isInner_methodInterface lines
  exact declares_of_opening opening fun line member => (inner line member).binds_nothing

theorem declares_class (h : client.className.toList.all isWordChar = true)
    (written : client.classLines dialect = .ok lines) :
    Declares client.className lines := by
  obtain ⟨blocks, hblocks, written⟩ := bind_eq_ok.mp written
  cases written
  have opening := declared?_opening h (Client.given client.baseClass
    ++ if client.buildsInterface then [client.interfaceName] else [])
  have inner : ∀ line ∈ ["    base_url: str = ''", ""] ++ client.constructorLines
      ++ blocks.flatMap ("" :: ·), IsInner line := by
    simp only [List.forall_mem_append]
    refine ⟨⟨by decide, isInner_constructor client⟩, fun line member => ?_⟩
    obtain ⟨block, inside, member⟩ := List.mem_flatMap.mp member
    obtain ⟨method, _, lines⟩ := exists_of_forall₂ (mapM_eq_ok.mp hblocks) inside
    rcases List.mem_cons.mp member with rfl | member
    · exact .inl rfl
    · exact isInner_method lines line member
  rw [List.cons_append, List.cons_append]
  exact declares_of_opening opening fun line member => (inner line member).binds_nothing

theorem isWord_clientNames (settings : Settings) (tag : String) (methods : List Method) :
    (Client.ofGroup settings tag methods).className.toList.all isWordChar = true ∧
      (Client.ofGroup settings tag methods).interfaceName.toList.all isWordChar = true := by
  obtain ⟨raw, same⟩ := exists_clientName settings tag
  rw [Client.ofGroup_className, Client.ofGroup_interfaceName, same, String.toList_append,
    List.all_append, all_isWordChar_type raw]
  decide

/-- A block of a client declares the name of the client's interface or of its class. -/
theorem declares_block {settings : Settings} {tag : String} {methods : List Method}
    (made : client = Client.ofGroup settings tag methods) {blocks : List (List String)}
    (h : client.blocks dialect = .ok blocks) : ∀ block ∈ blocks,
      Declares client.interfaceName block ∨ Declares client.className block := by
  obtain ⟨className, interfaceName⟩ := isWord_clientNames settings tag methods
  rw [← made] at className interfaceName
  intro block member
  rcases lines_of_blocks h block member with ⟨_, written⟩ | ⟨_, written⟩
  · exact .inl (declares_interface interfaceName written)
  · exact .inr (declares_class className written)

end

/-- The lines of the declaration of a type declare its name. -/
theorem declares_type {declaration : Declaration} {raw : String}
    (named : declaration.name = Identifier.ofRaw .type raw) :
    Declares declaration.name declaration.lines := by
  have word := all_isWordChar_type raw
  have filled := Identifier.ofRaw_ne_empty .type raw
  rw [← named] at word filled
  have opening {line : String} {rest : List Char}
      (text : line.toList = declaration.name.toList ++ (" = ".toList ++ rest)) :
      declared? line = some declaration.name := declared?_assigned word filled text
  unfold Declaration.lines
  split
  next members _ =>
    have text : (declaration.name ++ " = Literal[" ++ joined ", " (members.map Value.literal)
        ++ "]").toList = declaration.name.toList ++ (" = ".toList ++ ("Literal[".toList
          ++ ((joined ", " (members.map Value.literal)).toList ++ "]".toList))) := by
      simp only [String.toList_append, List.append_assoc]
      rfl
    exact declares_of_opening (opening text) (by decide)
  next type _ =>
    have text : (declaration.name ++ " = " ++ type.text .declared).toList =
        declaration.name.toList ++ (" = ".toList ++ (type.text .declared).toList) := by
      simp only [String.toList_append, List.append_assoc]
    exact declares_of_opening (opening text) (by decide)
  next fields _ =>
    have text : (declaration.name ++ " = TypedDict(").toList =
        declaration.name.toList ++ (" = ".toList ++ "TypedDict(".toList) := by
      rw [String.toList_append]
      rfl
    have field (f : FieldOf TypeHint) : IsInner (Declaration.fieldLine f) := by
      have lead : Indented ("        " ++ f.name.literal) := .append (by decide) _
      exact .inr (((lead.append _).append _).append _)
    have name : Indented ("    " ++ Text.quoted declaration.name) := .append (by decide) _
    have start : ∀ line ∈ ["    " ++ Text.quoted declaration.name ++ ",", "    \x7b"],
        IsInner line := by
      rw [List.forall_mem_cons]
      exact ⟨.inr (name.append _), by decide⟩
    have last : ∀ line ∈ ["    \x7d,", "    total=False,", ")", "", ""], bound line = [] := by
      decide
    have silent : ∀ line ∈ ["    " ++ Text.quoted declaration.name ++ ",", "    \x7b"]
        ++ fields.map Declaration.fieldLine ++ ["    \x7d,", "    total=False,", ")", "", ""],
        bound line = [] := by
      simp only [List.forall_mem_append, List.forall_mem_map]
      exact ⟨⟨fun line member => (start line member).binds_nothing,
        fun f _ => (field f).binds_nothing⟩, last⟩
    rw [List.cons_append, List.cons_append]
    exact declares_of_opening (opening text) silent

end ApiBinding.Code
