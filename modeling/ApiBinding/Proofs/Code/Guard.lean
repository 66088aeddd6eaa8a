import ApiBinding.Proofs.Code.Hygiene
import Mathlib.Data.List.Chain

/-!
Where bodies convert their arguments: which of their lines make a text, or a list of items, of an
argument, and whether they do so only where the argument is not null.
-/

namespace ApiBinding.Code

open Identifier (ofRaw)
open Text (quoted joined)

section

variable {s t : String} {first second : List String}

/-- A text that begins and ends in code, with the names that are read in it. -/
structure Mentions (s : String) (mentioned : List String) : Prop where
  lists : names [s] = mentioned
  rests : RestsIn (fun _ => True) (read (.plain []) s.toList).2

/-- A text of code after which a new path may begin, with the names that are read in it. -/
structure Opens (s : String) (mentioned : List String) : Prop where
  lists : names [s] = mentioned
  closed : (read (.plain []) s.toList).2 = .plain []

instance : Decidable (Mentions s first) :=
  decidable_of_iff (names [s] = first ∧ RestsIn (fun _ => True) (read (.plain []) s.toList).2)
    ⟨fun h => ⟨h.1, h.2⟩, fun h => ⟨h.lists, h.rests⟩⟩

instance : Decidable (Opens s first) :=
  decidable_of_iff (names [s] = first ∧ (read (.plain []) s.toList).2 = .plain [])
    ⟨fun h => ⟨h.1, h.2⟩, fun h => ⟨h.lists, h.closed⟩⟩

theorem names_line (s : String) : names [s] =
    (read (.plain []) s.toList).1 ++ (endLine (read (.plain []) s.toList).2).1 := by
  simp [names, readLines, readLine]

theorem Opens.append (h : Opens s first) (h' : Mentions t second) :
    Mentions (s ++ t) (first ++ second) := by
  have before := h.lists
  rw [names_line, h.closed] at before
  constructor
  · rw [names_line, String.toList_append, read_append, h.closed, ← h'.lists, names_line, ← before]
    simp [endLine, found]
  · rw [String.toList_append, read_append, h.closed]
    exact h'.rests

/-- Code at rest reads a character that ends paths as the end of a line. -/
theorem step_of_stop {mode : Mode} (rests : RestsIn (fun _ => True) mode) {c : Char}
    (stop : isStop c = true) : step mode c = ((endLine mode).1, .after c) := by
  have next := (rests.step stop).2
  rw [isStop, Bool.and_eq_true, Bool.not_eq_true', Bool.not_eq_true'] at stop
  refine Prod.ext ?_ next
  cases mode with
  | plain path =>
    rw [step, stop.1]
    rfl
  | empty quote =>
    rw [step, stop.1]
    split <;> rfl
  | _ => cases rests

theorem Mentions.join (h : Mentions s first) (stops : t.toList.head?.any isStop = true) :
    names [s ++ t] = first ++ names [t] ∧
      (read (.plain []) (s ++ t).toList).2 = (read (.plain []) t.toList).2 := by
  have rests := h.rests
  rw [← h.lists, names_line, names_line, names_line, String.toList_append, read_append]
  generalize (read (.plain []) s.toList).2 = mode at rests ⊢
  have start : RestsIn (fun _ => True) (.plain []) := fun _ _ => trivial
  generalize t.toList = text at stops ⊢
  obtain _ | ⟨c, cs⟩ := text
  · cases stops
  have stop : isStop c = true := stops
  simp [read, step_of_stop rests stop, step_of_stop start stop, endLine, found]

theorem Mentions.append (h : Mentions s first) (stops : t.toList.head?.any isStop = true)
    (h' : Mentions t second) : Mentions (s ++ t) (first ++ second) :=
  ⟨(h.join stops).1.trans (by rw [h'.lists]), (h.join stops).2 ▸ h'.rests⟩

theorem Mentions.opens (h : Mentions s first) (stops : t.toList.head?.any isStop = true)
    (h' : Opens t second) : Opens (s ++ t) (first ++ second) :=
  ⟨(h.join stops).1.trans (by rw [h'.lists]), (h.join stops).2.trans h'.closed⟩

theorem Opens.mentions (h : Opens s first) : Mentions s first :=
  ⟨h.lists, by rw [h.closed]; exact fun _ _ => trivial⟩

/-- A text whose names are allowed is allowed. -/
theorem Mentions.toSays {allowed : String → Prop} (h : Mentions s first)
    (h' : ∀ name ∈ first, allowed name) : SaysOnly allowed s := by
  obtain ⟨lists, rests⟩ := h
  rw [← lists, names_line, List.forall_mem_append] at h'
  refine ⟨h'.1, ?_⟩
  generalize (Code.read (.plain []) s.toList).2 = mode at h' rests ⊢
  cases mode with
  | plain path => exact h'.2
  | empty => exact rests
  | _ => cases rests

theorem mentions_quoted (s : String) : Mentions (quoted s) [] := by
  have empty : SaysOnly (fun _ => False) (quoted s) := says_quoted s
  refine ⟨?_, (empty.weaken (fun _ => False.elim)).rests⟩
  exact List.eq_nil_iff_forall_not_mem.mpr empty.reads.names

/-- The name of an argument is read as it is. -/
theorem mentions_parameter (raw : String) :
    Mentions (ofRaw .parameter raw) [ofRaw .parameter raw] := by
  have other : Identifier.Role.parameter ≠ .type := by decide
  have small := Identifier.all_small other raw
  have path := all_mono small fun _ => isPathChar_of_isSmall
  have root : rootOf (ofRaw .parameter raw).toList = ofRaw .parameter raw := by
    rw [rootOf, List.takeWhile_eq_self_iff.mpr, String.ofList_toList]
    intro c member
    rw [bne_iff_ne]
    rintro rfl
    exact absurd (List.all_eq_true.mp small '.' member) (by decide)
  have nonempty : (ofRaw .parameter raw).toList ≠ [] := by
    simpa using Identifier.ofRaw_ne_empty .parameter raw
  constructor
  · rw [names_line, read_path path]
    simp [endLine, found, root, nonempty]
  · rw [read_path path]
    exact fun _ _ => trivial

end

/-- Whether a name is one that is made for an argument. -/
def IsMade (name : String) : Prop := ∃ raw, name = ofRaw .parameter raw

/-- Whether a line converts a variable: it names the variable directly behind a converter. -/
def Converts (name line : String) : Prop :=
  ∃ converter ∈ converters, [converter, name] <:+: names [line]

/-- Whether a line, below another, reads a variable only where it is not null: it stands under a
test for that, or is a choice by one. -/
def IsGuarded (name : String) (above : Option String) (line : String) : Prop :=
  (above = some (bodyIndent ++ "if " ++ name ++ " is not None:") ∧
      (bodyIndent ++ "    ").toList <+: line.toList) ∨
    ["if", name, "is", "not", "None", "else", "None"] <:+ names [line]

/-- Whether lines, below another, convert a variable only where it is not null. -/
def GuardedFrom (name : String) : Option String → List String → Prop
  | _, [] => True
  | above, line :: rest =>
    (Converts name line → IsGuarded name above line) ∧ GuardedFrom name (some line) rest

/-- Whether lines convert a variable only where it is not null. -/
def ConvertsGuarded (name : String) (lines : List String) : Prop := GuardedFrom name none lines

instance (name line : String) : Decidable (Converts name line) :=
  inferInstanceAs (Decidable (∃ converter ∈ converters, [converter, name] <:+: names [line]))

instance (name : String) (above : Option String) (line : String) :
    Decidable (IsGuarded name above line) :=
  inferInstanceAs (Decidable (_ ∨ _))

instance decidableGuardedFrom (name : String) (above : Option String) :
    (lines : List String) → Decidable (GuardedFrom name above lines)
  | [] => .isTrue trivial
  | line :: rest =>
    have := decidableGuardedFrom name (some line) rest
    inferInstanceAs (Decidable (_ ∧ _))

instance (name : String) (lines : List String) : Decidable (ConvertsGuarded name lines) :=
  inferInstanceAs (Decidable (GuardedFrom name none lines))

section

variable {name line : String} {above : Option String} {first second lines : List String}

theorem guardedFrom_append : GuardedFrom name above (first ++ second) ↔
    GuardedFrom name above first ∧ GuardedFrom name (first.getLast?.or above) second := by
  induction first generalizing above with
  | nil => simp [GuardedFrom]
  | cons line first ih =>
    have last : (line :: first).getLast?.or above = first.getLast?.or (some line) := by
      cases first <;> simp [List.getLast?_cons]
    rw [List.cons_append, GuardedFrom, GuardedFrom, ih, last, and_assoc]

theorem guardedFrom_of_quiet (quiet : ∀ line ∈ lines, ¬Converts name line) :
    GuardedFrom name above lines := by
  induction lines generalizing above with
  | nil => trivial
  | cons line lines ih =>
    rw [List.forall_mem_cons] at quiet
    exact ⟨fun converts => absurd converts quiet.1, ih quiet.2⟩

/-- Lines in which nothing is converted have no part in what is guarded. -/
theorem guardedFrom_around (before : ∀ line ∈ first, ¬Converts name line)
    (after : ∀ line ∈ second, ¬Converts name line)
    {p : Prop} (within : ∀ above, GuardedFrom name above lines ↔ p) :
    GuardedFrom name above (first ++ lines ++ second) ↔ p := by
  rw [guardedFrom_append, guardedFrom_append, within]
  exact ⟨fun h => h.1.2, fun h => ⟨⟨guardedFrom_of_quiet before, h⟩, guardedFrom_of_quiet after⟩⟩

theorem not_converts_of_chain (mentions : Mentions line first)
    (apart : first.IsChain fun function argument => function ∈ converters → argument ≠ name) :
    ¬Converts name line := by
  rintro ⟨converter, known, infix_⟩
  rw [mentions.lists] at infix_
  have pair := apart.infix infix_
  simp [known] at pair

theorem not_converts_of_says (plain : SaysOnly (· ∉ converters) line) : ¬Converts name line := by
  rintro ⟨converter, known, inside⟩
  exact plain.reads.names converter (inside.subset (List.mem_cons_self ..)) known

theorem IsMade.mentions (made : IsMade name) : Mentions name [name] := by
  obtain ⟨raw, rfl⟩ := made
  exact mentions_parameter raw

theorem IsMade.not_mem (made : IsMade name) : name ∉ bodyNames ++ Identifier.localNames ++
    SupportClass.all.map SupportClass.name := by
  obtain ⟨raw, rfl⟩ := made
  exact not_mem_bodyNames raw

theorem IsMade.not_mem_converters (made : IsMade name) : name ∉ converters := by
  have known : ∀ converter ∈ converters, converter ∈ bodyNames ++ Identifier.localNames ++
      SupportClass.all.map SupportClass.name := by decide
  exact fun member => made.not_mem (known name member)

theorem IsMade.unconverted (made : IsMade name) : SaysOnly (· ∉ converters) name :=
  made.mentions.toSays (by simpa using made.not_mem_converters)

theorem allowsPlain_unconverted : AllowsPlain (· ∉ converters) where
  words := by decide
  numbers := fun n member => by
    have other : ∀ converter ∈ converters, converter.toList.head?.any Char.isDigit = false := by
      decide
    have digit := Numeral.head_toString n
    rw [other _ member] at digit
    cases digit

end

section

variable {argument : Argument} {arguments : List Argument} {name : String} {above : Option String}

theorem mentions_joined {separator : String} (opens : Opens separator [])
    (stops : separator.toList.head?.any isStop = true) {texts : List String}
    {mentioned : List (List String)} (h : List.Forall₂ Mentions texts mentioned) :
    Mentions (joined separator texts) mentioned.flatten := by
  induction h with
  | nil => exact (by decide : Mentions "" [])
  | @cons s found texts mentioned here rest ih =>
    cases rest with
    | nil => simpa [joined] using here
    | cons second rest =>
      have before : Opens (s ++ separator) found := by simpa using here.opens stops opens
      exact before.append ih

/-- Nothing is converted where a query is collected. -/
theorem not_converts_query (made : IsMade name)
    (named : ∀ argument ∈ arguments, IsMade argument.name) :
    ∀ line ∈ (bodyIndent ++ "query_: dict[str, Any] = \x7b\x7d") ::
      arguments.flatMap fun argument => argument.assignment "query_" argument.name,
      ¬Converts name line := by
  have unconverted : ∀ argument ∈ arguments, SaysOnly (· ∉ converters) argument.name :=
    fun argument member => (named argument member).unconverted
  have any : name ≠ "Any" := by
    rintro rfl
    exact made.not_mem (by decide)
  rw [List.forall_mem_cons]
  have opened : Mentions (bodyIndent ++ "query_: dict[str, Any] = \x7b\x7d")
      ["query_", "dict", "str", "Any"] := by decide
  refine ⟨not_converts_of_chain opened ?_, fun line member => not_converts_of_says ?_⟩
  · simp [converters, SupportClass.name, any.symm]
  · exact says_assignments allowsPlain_unconverted unconverted
      (allowsPlain_unconverted.fixed (by decide)) unconverted line member

/-- The names in what a piece of an address is written as. -/
def pieceNames : PathTemplate.Piece → List String
  | .text _ => []
  | .value argument => ["quote", "str", argument.name, "safe"]

theorem mentions_expression {piece : PathTemplate.Piece}
    (named : ∀ argument, piece = .value argument → IsMade argument.name) :
    Mentions piece.expression (pieceNames piece) := by
  cases piece with
  | text cs => exact mentions_quoted _
  | value argument =>
    have opens : Opens "quote(str(" ["quote", "str"] := by decide
    have closes : Mentions "), safe='')" ["safe"] := by decide
    exact (opens.append (named argument rfl).mentions).append (by decide) closes

/-- In addresses, only what stands in their path is converted. -/
theorem not_converts_address (named : ∀ argument ∈ arguments, IsMade argument.name)
    (other : ∀ argument ∈ arguments, argument.name ≠ name) (path : String) :
    ¬Converts name (bodyIndent ++ "url_ = " ++ addressExpression path arguments) := by
  have inside {given : Argument} (h : .value given ∈ PathTemplate.pieces arguments path) :
      given ∈ arguments := mem_of_mem_piecesFrom h
  generalize same : PathTemplate.pieces arguments path = pieces at inside
  have base : Mentions "self.base_url.rstrip('/')" ["self"] := by decide
  have parts : List.Forall₂ Mentions (pieces.map PathTemplate.Piece.expression)
      (pieces.map pieceNames) := by
    rw [List.forall₂_map_left_iff, List.forall₂_map_right_iff, List.forall₂_same]
    exact fun piece member => mentions_expression fun given h => named given (inside (h ▸ member))
  have assigns : Opens (bodyIndent ++ "url_ = ") ["url_"] := by decide
  have plus : Opens " + " [] := by decide
  have mentions := assigns.append (mentions_joined plus (by decide) (.cons base parts))
  have chain : ∀ before, before ∉ converters →
      (before :: (pieces.map pieceNames).flatten).IsChain fun function argument =>
        function ∈ converters → argument ≠ name := by
    clear same mentions parts
    induction pieces with
    | nil => simp
    | cons piece pieces ih =>
      intro before unconverting
      have rest := ih fun h => inside (List.mem_cons_of_mem _ h)
      cases piece with
      | text cs => exact rest before unconverting
      | value given =>
        have member := inside (List.mem_cons_self ..)
        have unknown := (named given member).not_mem_converters
        have safe := rest "safe" (by decide)
        have quote : "quote" ∉ converters := by decide
        simp [pieceNames, unconverting, other given member, unknown, quote, safe]
  rw [addressExpression, same]
  refine not_converts_of_chain mentions ?_
  have first : "url_" ∉ converters := by decide
  have chain := chain "self" (by decide)
  simp [first, chain]

theorem mentions_test (made : IsMade name) :
    Mentions (bodyIndent ++ "if " ++ name ++ " is not None:")
      ["if", name, "is", "not", "None"] := by
  have opens : Opens (bodyIndent ++ "if ") ["if"] := by decide
  have closes : Mentions " is not None:" ["is", "not", "None"] := by decide
  exact (opens.append made.mentions).append (by decide) closes

theorem not_converts_test {tested : String} (named : IsMade tested) :
    ¬Converts name (bodyIndent ++ "if " ++ tested ++ " is not None:") := by
  have unconverted : ∀ word ∈ ["if", "is", "not", "None"], word ∉ converters := by decide
  have unknown := named.not_mem_converters
  refine not_converts_of_chain (mentions_test named) ?_
  simp_all

theorem mentions_header (made : IsMade argument.name) {indent : String} (blank : Opens indent []) :
    Mentions (indent ++ ("request_headers_" ++ "[" ++ quoted argument.sentName ++ "] = " ++
      ("str(" ++ argument.name ++ ")"))) ["request_headers_", "str", argument.name] := by
  have target : Opens ("request_headers_" ++ "[") ["request_headers_"] := by decide
  have equals : Opens "] = " [] := by decide
  have opens : Opens "str(" ["str"] := by decide
  have closes : Mentions ")" [] := by decide
  have value := (opens.append made.mentions).append (by decide) closes
  exact blank.append (((target.append (mentions_quoted _)).opens (by decide) equals).append value)

theorem not_converts_header (made : IsMade argument.name) (other : argument.name ≠ name)
    {indent : String} (blank : Opens indent []) :
    ¬Converts name (indent ++ ("request_headers_" ++ "[" ++ quoted argument.sentName ++ "] = " ++
      ("str(" ++ argument.name ++ ")"))) := by
  have target : "request_headers_" ∉ converters := by decide
  refine not_converts_of_chain (mentions_header made blank) ?_
  simp [target, other]

theorem converts_header (made : IsMade argument.name) {indent : String} (blank : Opens indent []) :
    Converts argument.name (indent ++ ("request_headers_" ++ "[" ++ quoted argument.sentName ++
      "] = " ++ ("str(" ++ argument.name ++ ")"))) := by
  refine ⟨"str", by decide, ?_⟩
  rw [(mentions_header made blank).lists]
  exact ⟨["request_headers_"], [], rfl⟩

/-- A header is converted under a test exactly if its argument may be left out for null. -/
theorem guarded_assignment (made : IsMade argument.name) :
    GuardedFrom argument.name above
      (argument.assignment "request_headers_" ("str(" ++ argument.name ++ ")")) ↔
        argument.isOmittable = true := by
  have indent : Opens bodyIndent [] := by decide
  have deeper : Opens (bodyIndent ++ "    ") [] := by decide
  unfold Argument.assignment
  dsimp only
  split
  next omittable =>
    refine iff_of_true ?_ omittable
    refine ⟨fun converts => absurd converts (not_converts_test made), fun _ => ?_, trivial⟩
    exact .inl ⟨rfl, by simp [String.toList_append]⟩
  next given =>
    refine iff_of_false (fun guarded => ?_) given
    obtain ⟨⟨_, inside⟩ | chosen, _⟩ := guarded.imp_left (· (converts_header made indent))
    · rw [String.toList_append, String.toList_append, List.prefix_append_right_inj] at inside
      obtain ⟨rest, same⟩ := inside
      simp at same
    · rw [(mentions_header made indent).lists] at chosen
      exact absurd chosen.length_le (by simp)

theorem not_converts_assignment (made : IsMade argument.name) (other : argument.name ≠ name) :
    ∀ line ∈ argument.assignment "request_headers_" ("str(" ++ argument.name ++ ")"),
      ¬Converts name line := by
  have indent : Opens bodyIndent [] := by decide
  have deeper : Opens (bodyIndent ++ "    ") [] := by decide
  unfold Argument.assignment
  dsimp only
  split
  · rw [List.forall_mem_cons, List.forall_mem_singleton]
    exact ⟨not_converts_test made, not_converts_header made other deeper⟩
  · rw [List.forall_mem_singleton]
    exact not_converts_header made other indent

theorem not_converts_fixedHeaders (made : IsMade name) (accept contentType : Option String) :
    ¬Converts name (bodyIndent ++ "request_headers_: dict[str, str] = \x7b" ++ joined ", "
      ((accept.map fun type => "'Accept': " ++ quoted type).toList ++
        (contentType.map fun type => "'Content-Type': " ++ quoted type).toList) ++ "\x7d") := by
  have opens : Opens (bodyIndent ++ "request_headers_: dict[str, str] = \x7b")
      ["request_headers_", "dict", "str", "str"] := by decide
  have closes : Mentions "\x7d" [] := by decide
  have accepted : Opens "'Accept': " [] := by decide
  have typed : Opens "'Content-Type': " [] := by decide
  have literal {lead : String} (leads : Opens lead []) (type : Option String) :
      List.Forall₂ Mentions (type.map fun type => lead ++ quoted type).toList
        (type.map fun _ => []).toList := by
    cases type with
    | none => exact .nil
    | some type => exact .cons (leads.append (mentions_quoted type)) .nil
  have comma : Opens ", " [] := by decide
  have fixed := mentions_joined comma (by decide) (List.rel_append
    (literal accepted accept) (literal typed contentType))
  have text : name ≠ "str" := by
    rintro rfl
    exact made.not_mem (by decide)
  refine not_converts_of_chain ((opens.append fixed).append (by decide) closes) ?_
  cases accept <;> cases contentType <;>
    simp [converters, SupportClass.name, text.symm]

theorem ne_of_not_mem_names (h : name ∉ arguments.map Argument.name) :
    ∀ argument ∈ arguments, argument.name ≠ name :=
  fun _ member same => h (same ▸ List.mem_map_of_mem member)

theorem not_converts_assignments (named : ∀ argument ∈ arguments, IsMade argument.name)
    (other : ∀ argument ∈ arguments, argument.name ≠ name) :
    ∀ line ∈ arguments.flatMap fun argument => argument.assignment "request_headers_"
      ("str(" ++ argument.name ++ ")"), ¬Converts name line := by
  intro line member
  obtain ⟨argument, here, member⟩ := List.mem_flatMap.mp member
  exact not_converts_assignment (named argument here) (other argument here) line member

/-- Of the lines that collect headers, those for an argument convert it under a test exactly if it
may be left out for null. -/
theorem guarded_headerLines (named : ∀ argument ∈ arguments, IsMade argument.name)
    (distinct : (arguments.map Argument.name).Nodup) (given : argument ∈ arguments)
    (accept contentType : Option String) :
    GuardedFrom argument.name above (headerLines arguments accept contentType) ↔
      argument.isOmittable = true := by
  obtain ⟨before, after, rfl⟩ := List.append_of_mem given
  have made := named argument given
  rw [List.map_append, List.map_cons, List.perm_middle.nodup_iff, List.nodup_cons,
    List.mem_append, not_or] at distinct
  rw [List.forall_mem_append, List.forall_mem_cons] at named
  have first := not_converts_assignments named.1 (ne_of_not_mem_names distinct.1.1)
  have last := not_converts_assignments named.2.2 (ne_of_not_mem_names distinct.1.2)
  unfold headerLines
  dsimp only
  rw [List.flatMap_append, List.flatMap_cons, ← List.append_assoc, ← List.cons_append,
    ← List.cons_append]
  refine guardedFrom_around ?_ last fun above => guarded_assignment made
  rw [List.forall_mem_cons]
  exact ⟨not_converts_fixedHeaders made accept contentType, first⟩

theorem mentions_content (made : IsMade argument.name) {value : String} {mentioned : List String}
    (h : Mentions value mentioned) :
    Mentions (bodyIndent ++ "content_ = " ++ argument.guarded value) ("content_" :: mentioned ++
      if argument.isOmittable then ["if", argument.name, "is", "not", "None", "else", "None"]
      else []) := by
  have assigns : Opens (bodyIndent ++ "content_ = ") ["content_"] := by decide
  have test : Opens " if " ["if"] := by decide
  have choice : Mentions " is not None else None" ["is", "not", "None", "else", "None"] := by decide
  unfold Argument.guarded
  split
  · simpa using assigns.append (((h.opens (by decide) test).append made.mentions).append (by decide)
      choice)
  · simpa using assigns.append h

/-- A body that is converted is so by choice exactly if its argument may be left out for null. -/
theorem guarded_content (made : IsMade argument.name) {value converter : String}
    {lead : List String} (known : converter ∈ converters) (short : lead.length < 4)
    (h : Mentions value (lead ++ [converter, argument.name])) :
    GuardedFrom argument.name above [bodyIndent ++ "content_ = " ++ argument.guarded value] ↔
      argument.isOmittable = true := by
  have mentions := mentions_content made h
  have converts : Converts argument.name
      (bodyIndent ++ "content_ = " ++ argument.guarded value) := by
    refine ⟨converter, known, ?_⟩
    rw [mentions.lists]
    exact ⟨"content_" :: lead, _, rfl⟩
  have reduced : GuardedFrom argument.name above
      [bodyIndent ++ "content_ = " ++ argument.guarded value] ↔
        IsGuarded argument.name above (bodyIndent ++ "content_ = " ++ argument.guarded value) :=
    ⟨fun h => h.1 converts, fun h => ⟨fun _ => h, trivial⟩⟩
  rw [reduced]
  constructor
  · rintro (⟨_, inside⟩ | chosen)
    · rw [String.toList_append, String.toList_append, String.toList_append, List.append_assoc,
        List.prefix_append_right_inj] at inside
      obtain ⟨rest, same⟩ := inside
      simp at same
    · by_contra given
      rw [mentions.lists, if_neg given] at chosen
      have length := chosen.length_le
      simp at length
      omega
  · intro omittable
    refine .inr ?_
    rw [mentions.lists, if_pos omittable]
    exact List.suffix_append _ _

theorem not_converts_content (made : IsMade argument.name) {value : String} {lead : List String}
    (h : Mentions value (lead ++ [argument.name]))
    (apart : ("content_" :: lead ++ [argument.name]).IsChain fun function argument =>
      function ∈ converters → argument ≠ name) :
    ¬Converts name (bodyIndent ++ "content_ = " ++ argument.guarded value) := by
  have fixed : ∀ word ∈ ["if", "is", "not", "None", "else"], word ∉ converters := by decide
  have unknown := made.not_mem_converters
  refine not_converts_of_chain (mentions_content made h) ?_
  split
  · rw [← List.cons_append, List.isChain_append]
    refine ⟨apart, ?_, ?_⟩
    · simp_all
    · intro last ends
      rw [List.getLast?_concat, Option.mem_some] at ends
      simp [← ends, unknown]
  · simpa using apart

theorem mentions_dumped (made : IsMade argument.name) :
    Mentions ("json.dumps(" ++ argument.name ++ ")") (["json"] ++ [argument.name]) := by
  have dumps : Opens "json.dumps(" ["json"] := by decide
  have closes : Mentions ")" [] := by decide
  simpa using (dumps.append made.mentions).append (by decide) closes

theorem mentions_listed (made : IsMade argument.name) :
    Mentions ("json.dumps(list(" ++ argument.name ++ "))")
      (["json"] ++ ["list", argument.name]) := by
  have dumps : Opens "json.dumps(list(" ["json", "list"] := by decide
  have closes : Mentions "))" [] := by decide
  simpa using (dumps.append made.mentions).append (by decide) closes

theorem mentions_streamed (made : IsMade argument.name) :
    Mentions ("JsonArrayStreamContent(" ++ argument.name ++ ")")
      ([] ++ ["JsonArrayStreamContent", argument.name]) := by
  have called : Opens "JsonArrayStreamContent(" ["JsonArrayStreamContent"] := by decide
  have closes : Mentions ")" [] := by decide
  simpa using (called.append made.mentions).append (by decide) closes

theorem not_converts_wholeBody (made : IsMade argument.name) {format : BodyFormat}
    (other : argument.name ≠ name ∨ format ≠ .jsonList) :
    ¬Converts name (bodyIndent ++ "content_ = " ++ wholeBodyExpression argument format) := by
  have assigns : Opens (bodyIndent ++ "content_ = ") ["content_"] := by decide
  have fixed : "content_" ∉ converters ∧ "json" ∉ converters := by decide
  cases format with
  | json => exact not_converts_content made (mentions_dumped made) (by simp [fixed])
  | jsonList =>
    have other := other.resolve_right (by simp)
    have listed : Mentions ("json.dumps(list(" ++ argument.name ++ "))")
        (["json", "list"] ++ [argument.name]) := mentions_listed made
    exact not_converts_content made listed (by simp [fixed, other])
  | binary => exact not_converts_of_chain (assigns.append made.mentions) (by simp [fixed])

theorem not_converts_streamedBody (made : IsMade argument.name) (other : argument.name ≠ name) :
    ¬Converts name (bodyIndent ++ "content_ = " ++ streamedBodyExpression argument) := by
  have fixed : "content_" ∉ converters := by decide
  have streamed : Mentions ("JsonArrayStreamContent(" ++ argument.name ++ ")")
      (["JsonArrayStreamContent"] ++ [argument.name]) := mentions_streamed made
  exact not_converts_content made streamed (by simp [fixed, other])

/-- Nothing is converted where responses are handled. -/
theorem not_converts_response {mode : ResponseMode} {cases : List StatusCase} {result : TypeHint}
    {style : TypeHint.Style} {lines : List String}
    (streams : ∀ c ∈ cases, c.action = .openStream → mode.isStreamed = true)
    (prose : ∀ c ∈ cases, c.message.IsProse)
    (written : (Step.response mode cases result).lines style = .ok lines) :
    ∀ line ∈ lines, ¬Converts name line := by
  have carried : ∀ support ∈ mode.support, support.name ∉ converters := by
    cases mode <;> decide
  refine fun line member => not_converts_of_says ?_
  refine says_responseLines allowsPlain_unconverted carried (fun c inside => ⟨streams c inside, ?_⟩)
    written line member
  obtain null | ⟨s, text⟩ := prose c inside
  · have literal : SaysOnly (· ∉ converters) "None" := allowsPlain_unconverted.fixed (by decide)
    rwa [null]
  · rw [text]
    exact says_quoted s

end

end ApiBinding.Code
