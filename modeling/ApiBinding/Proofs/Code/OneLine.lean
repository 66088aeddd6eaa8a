import ApiBinding.Proofs.Code.Hint
import ApiBinding.Proofs.Method.Hints
import ApiBinding.Proofs.Text.Lines

/-!
Literals, names and type hints are written on one line, whatever texts they are made of: a literal
escapes all characters that end lines, and a made name holds letters, digits and underscores.
-/

namespace ApiBinding.Code

open Text (OneLine isLineEnd isPrintable hexDigit hexDigits escapeCode escapeChar escapeUnit joined)
open Identifier (ofRaw)

/-- No character that ends a line has a form of its own. -/
theorem isLineEnd_of_isPrintable {c : Char} (visible : isPrintable c = true) :
    isLineEnd c = false := by
  have none : ∀ n ∈ [10, 11, 12, 13, 28, 29, 30, 0x85, 0x2028, 0x2029],
      isPrintable (Char.ofNat n) = false := by decide +kernel
  by_contra ends
  have point : c.toNat ∈ [10, 11, 12, 13, 28, 29, 30, 0x85, 0x2028, 0x2029] := by
    simp only [Bool.not_eq_false, isLineEnd, Bool.or_eq_true, Bool.and_eq_true,
      decide_eq_true_eq, beq_iff_eq] at ends
    simp only [List.mem_cons, List.not_mem_nil, or_false]
    omega
  have hidden := none c.toNat point
  rw [Char.ofNat_toNat, visible] at hidden
  cases hidden

/-- Whether characters end no line. -/
def Inline (cs : List Char) : Prop := ∀ c ∈ cs, isLineEnd c = false

theorem inline_hexDigits (width n : Nat) : Inline (hexDigits width n) := by
  have digit : ∀ n < 16, isLineEnd (hexDigit n) = false := by decide
  induction width generalizing n with
  | zero => exact nofun
  | succ width ih =>
    rw [hexDigits, Inline, List.forall_mem_append, List.forall_mem_singleton]
    exact ⟨ih (n / 16), digit (n % 16) (Nat.mod_lt n (by decide))⟩

theorem inline_escapeCode (n : Nat) : Inline (escapeCode n) := by
  have escaped {mark : Char} (inside : isLineEnd mark = false) (width : Nat) :
      Inline ('\\' :: mark :: hexDigits width n) := by
    rw [Inline, List.forall_mem_cons, List.forall_mem_cons]
    exact ⟨by decide, inside, inline_hexDigits width n⟩
  unfold escapeCode
  split
  next => exact escaped (by decide) 2
  next =>
    split
    next => exact escaped (by decide) 4
    next => exact escaped (by decide) 8

theorem isLineEnd_of_isQuote {c : Char} (quotes : isQuote c = true) : isLineEnd c = false := by
  rw [isQuote, Bool.or_eq_true, beq_iff_eq, beq_iff_eq] at quotes
  rcases quotes with rfl | rfl <;> decide

theorem inline_escapeChar {quote : Char} (quotes : isQuote quote = true) (c : Char) :
    Inline (escapeChar quote c) := by
  have marked {mark : Char} (inside : isLineEnd mark = false) : Inline ['\\', mark] := by
    rw [Inline, List.forall_mem_cons, List.forall_mem_singleton]
    exact ⟨by decide, inside⟩
  unfold escapeChar
  split
  next itself =>
    refine marked ?_
    rcases itself with rfl | rfl
    · exact isLineEnd_of_isQuote quotes
    · decide
  next =>
    repeat' split
    · exact marked (by decide)
    · exact marked (by decide)
    · exact marked (by decide)
    next visible => exact List.forall_mem_singleton.mpr (isLineEnd_of_isPrintable visible)
    next => exact inline_escapeCode c.toNat

theorem inline_escapeUnit {quote : Char} (quotes : isQuote quote = true) (code : Nat) :
    Inline (escapeUnit quote code) := by
  unfold escapeUnit
  split
  next => exact inline_escapeCode code
  next => exact inline_escapeChar quotes _

/-- A text between quotes is one line, whatever it holds. -/
theorem oneLine_quoted (s : String) : OneLine (Text.quoted s) := by
  have quotes := isQuote_quoteFor s.toList
  have quote := isLineEnd_of_isQuote quotes
  rw [OneLine, Text.quoted, String.toList_ofList, Text.quotedChars]
  rw [List.cons_append, List.forall_mem_cons, List.forall_mem_append, List.forall_mem_singleton]
  refine ⟨quote, fun c member => ?_, quote⟩
  obtain ⟨code, _, member⟩ := List.mem_flatMap.mp member
  exact inline_escapeUnit quotes code c member

theorem oneLine_quotedBytes (bytes : List UInt8) : OneLine (Text.quotedBytes bytes) := by
  have quotes := isQuote_quoteFor (bytes.map fun byte => Char.ofNat byte.toNat)
  have quote := isLineEnd_of_isQuote quotes
  rw [OneLine, Text.quotedBytes, String.toList_ofList]
  rw [List.cons_append, List.cons_append, List.forall_mem_cons, List.forall_mem_cons,
    List.forall_mem_append, List.forall_mem_singleton]
  refine ⟨by decide, quote, fun c member => ?_, quote⟩
  obtain ⟨byte, _, member⟩ := List.mem_flatMap.mp member
  unfold Text.escapeByte at member
  split at member
  next => exact inline_escapeChar quotes _ c member
  next => exact inline_escapeCode _ c member

theorem oneLine_of_quiet {s : String} (h : Quiet s) : OneLine s := by
  intro c member
  have quiet := List.all_eq_true.mp h c member
  simp only [isQuiet, Bool.and_eq_true, Bool.not_eq_true'] at quiet
  exact quiet.2

theorem oneLine_scalar (s : Scalar) : OneLine s.literal := by
  cases s with
  | null => exact by decide
  | bool b => cases b <;> exact by decide
  | int i => exact oneLine_of_quiet (quiet_int i)
  | float x => exact oneLine_of_quiet (quiet_binary x)
  | nan name => exact oneLine_of_quiet (quiet_binary .nan)
  | text s => exact oneLine_quoted s
  | bytes bytes => exact oneLine_quotedBytes bytes
  | moment m => exact oneLine_of_quiet (quiet_moment m)

theorem oneLine_bracketed (collection : Value) {inside : String} (h : OneLine inside) :
    OneLine (collection.bracketed inside) := by
  have fixed : OneLine "[" ∧ OneLine "]" ∧ OneLine "(" ∧ OneLine ")" ∧ OneLine "\x7b" ∧
      OneLine "\x7d" := by decide
  unfold Value.bracketed Value.brackets
  split <;> simp only [Text.oneLine_append, h, fixed, and_self]

theorem oneLine_listed {texts : List String} (each : ∀ text ∈ texts, OneLine text) :
    OneLine (joined ", " texts) :=
  (Text.oneLine_joined (by decide)).mpr each

mutual

theorem oneLine_literalIn (around : List (Nat × Value)) :
    (v : Value) → OneLine (v.literalIn around)
  | .scalar s => oneLine_scalar s
  | .list items =>
    oneLine_bracketed (.list items) (oneLine_listed (oneLine_itemLiterals around items))
  | .map entries =>
    oneLine_bracketed (.map entries) (oneLine_listed (oneLine_entryLiterals around entries))
  | .set [] => (by decide : OneLine "set()")
  | .set (s :: members) => by
    refine oneLine_bracketed _ (oneLine_listed fun t member => ?_)
    obtain ⟨scalar, _, rfl⟩ := List.mem_map.mp member
    exact oneLine_scalar scalar
  | .pair first second => by
    have comma : OneLine ", " := by decide
    have parts := And.intro (oneLine_literalIn around first) (oneLine_literalIn around second)
    exact oneLine_bracketed _ (by simp only [Text.oneLine_append, comma, parts, and_self])
  | .knot name body => by
    rw [Value.literalIn]
    split
    · exact oneLine_bracketed body (by decide)
    · exact oneLine_literalIn ((name, body) :: around) body
  | .again name => oneLine_bracketed _ (by decide)

theorem oneLine_itemLiterals (around : List (Nat × Value)) :
    (items : List Value) → ∀ s ∈ Value.itemLiterals around items, OneLine s
  | [] => nofun
  | v :: rest => fun s member => by
    rcases List.mem_cons.mp member with rfl | member
    · exact oneLine_literalIn around v
    · exact oneLine_itemLiterals around rest s member

theorem oneLine_entryLiterals (around : List (Nat × Value)) :
    (entries : List (Scalar × Value)) → ∀ s ∈ Value.entryLiterals around entries, OneLine s
  | [] => nofun
  | (k, v) :: rest => fun s member => by
    rcases List.mem_cons.mp member with rfl | member
    · have colon : OneLine ": " := by decide
      have parts := And.intro (oneLine_scalar k) (oneLine_literalIn around v)
      simp only [Text.oneLine_append, colon, parts, and_self]
    · exact oneLine_entryLiterals around rest s member

end

/-- The literal of a value is one line, whatever texts the value holds. -/
theorem oneLine_literal (v : Value) : OneLine v.literal := oneLine_literalIn [] v

theorem oneLine_members (members : List Value) :
    OneLine (joined ", " (members.map Value.literal)) := by
  refine oneLine_listed fun s member => ?_
  obtain ⟨v, _, rfl⟩ := List.mem_map.mp member
  exact oneLine_literal v

theorem oneLine_literals (members : List Value) :
    OneLine ("Literal[" ++ joined ", " (members.map Value.literal) ++ "]") := by
  have fixed : OneLine "Literal[" ∧ OneLine "]" := by decide
  simp only [Text.oneLine_append, fixed, oneLine_members, and_self]

theorem oneLine_small {role : Identifier.Role} (other : role ≠ .type) (raw : String) :
    OneLine (ofRaw role raw) :=
  oneLine_of_quiet (all_mono (Identifier.all_small other raw) fun _ => isQuiet_of_isSmall)

theorem oneLine_made (role : Identifier.Role) (raw : String) : OneLine (ofRaw role raw) := by
  by_cases type : role = .type
  · exact type ▸ Identifier.oneLine_type raw
  · exact oneLine_small type raw

mutual

/-- The names that a hint is written with, at any depth. -/
def namesOf : TypeHint → List String
  | .named name _ _ => [name]
  | .applied (.generic name) arguments _ => name :: allNamesOf arguments
  | .applied _ arguments _ => allNamesOf arguments
  | _ => []

def allNamesOf : List TypeHint → List String
  | [] => []
  | hint :: rest => namesOf hint ++ allNamesOf rest

end

theorem namesOf_withNull (nullable : Bool) (hint : TypeHint) :
    namesOf (hint.withNull nullable) = namesOf hint := by
  cases hint with
  | applied container => cases container <;> rfl
  | _ => rfl

theorem mem_namesOf_applied {container : Container} {argument : TypeHint} {nullable : Bool}
    {name : String} (h : name ∈ namesOf (.applied container [argument] nullable)) :
    container = .generic name ∨ name ∈ namesOf argument := by
  cases container with
  | generic other =>
    rcases List.mem_cons.mp h with rfl | h
    · exact .inl rfl
    · exact .inr (by simpa [allNamesOf] using h)
  | _ => exact .inr (by simpa [namesOf, allNamesOf] using h)

/-- The names of the types that values have by themselves. -/
def plainTypes : List String := ["str", "int", "float", "bool", "bytes"]

/-- The hint of a shape is written with made names and those of plain types. -/
theorem named_ofShape (context : TypeHint.Context) (shape : Shape) :
    ∀ name ∈ namesOf (TypeHint.ofShape context shape),
      name ∈ plainTypes ∨ ∃ raw, name = ofRaw .type raw := by
  induction shape using Shape.parts_induction generalizing context with
  | step shape ih =>
  have model (label : String) (nullable : Bool) :
      ∀ name ∈ namesOf (.named (ofRaw .type label) true nullable),
        name ∈ plainTypes ∨ ∃ raw, name = ofRaw .type raw := fun name member =>
    .inr ⟨label, List.mem_singleton.mp member⟩
  cases shape with
  | primitive kind nullable =>
    cases kind <;> simp [TypeHint.ofShape, TypeHint.ofPrimitive, namesOf, plainTypes]
  | unknown description nullable => simp [TypeHint.ofShape, namesOf]
  | array element nullable streamable =>
    intro name member
    rcases mem_namesOf_applied member with generic | member
    · exact absurd generic (TypeHint.arrayContainer_ne_generic context streamable name)
    · exact ih element (by simp [Shape.parts]) _ name member
  | object title fields additional nullable =>
    cases titled : Shape.label? title with
    | some label => cases additional <;> simpa [TypeHint.ofShape, titled] using model label nullable
    | none =>
      cases additional with
      | none => simp [TypeHint.ofShape, titled, namesOf, allNamesOf]
      | some value =>
        have part := ih value (by simp [Shape.parts, Shape.additional]) context.inner
        simpa [TypeHint.ofShape, titled, namesOf, allNamesOf] using part
  | enumeration title members nullable =>
    cases titled : Shape.label? title with
    | some label => simpa [TypeHint.ofShape, titled] using model label nullable
    | none =>
      by_cases empty : members.isEmpty <;> simp [TypeHint.ofShape, titled, empty, namesOf]
  | generic label argument nullable =>
    intro name member
    rcases mem_namesOf_applied member with generic | member
    · exact .inr ⟨label, TypeHint.name_of_genericContainer generic⟩
    · exact ih argument (by simp [Shape.parts]) _ name member

/-- Whether a hint is written with names of one line each. -/
def NamedInline (hint : TypeHint) : Prop := ∀ name ∈ namesOf hint, OneLine name

theorem namedInline_ofShape (context : TypeHint.Context) (shape : Shape) :
    NamedInline (TypeHint.ofShape context shape) := by
  intro name member
  rcases named_ofShape context shape name member with plain | ⟨raw, rfl⟩
  · exact (by decide : ∀ name ∈ plainTypes, OneLine name) name plain
  · exact Identifier.oneLine_type raw

theorem NamedInline.withNull {hint : TypeHint} (h : NamedInline hint) (nullable : Bool) :
    NamedInline (hint.withNull nullable) := by
  rwa [NamedInline, namesOf_withNull]

theorem NamedInline.applied {container : Container} {hint : TypeHint} (h : NamedInline hint)
    (named : ∀ name, container = .generic name → OneLine name) (nullable : Bool) :
    NamedInline (.applied container [hint] nullable) := fun name member =>
  (mem_namesOf_applied member).elim (named name) (h name)

theorem oneLine_orNull {base : String} (h : OneLine base) (style : TypeHint.Style)
    (nullable : Bool) : OneLine (if nullable then TypeHint.optionalText style base else base) := by
  have fixed : OneLine " | None" ∧ OneLine "Optional[" ∧ OneLine "]" := by decide
  split
  · unfold TypeHint.optionalText
    split
    · exact h
    · split <;> simp only [Text.oneLine_append, h, fixed, and_self]
  · exact h

theorem oneLine_container {container : Container} {arguments : String}
    (named : ∀ name, container = .generic name → OneLine name) (h : OneLine arguments) :
    OneLine (TypeHint.Container.text container arguments) := by
  have fixed : OneLine "list[" ∧ OneLine "dict[str, " ∧ OneLine "AsyncIterator[" ∧
      OneLine "AsyncIterable[" ∧ OneLine "[" ∧ OneLine "]" := by decide
  cases container with
  | generic name =>
    simp only [TypeHint.Container.text, Text.oneLine_append, named name rfl, h, fixed, and_self]
  | _ => simp only [TypeHint.Container.text, Text.oneLine_append, h, fixed, and_self]

mutual

/-- A hint is one line if its names are. -/
theorem oneLine_hint (style : TypeHint.Style) :
    (hint : TypeHint) → NamedInline hint → OneLine (hint.text style)
  | .any nullable, _ => oneLine_orNull (by decide) style nullable
  | .named name isModel nullable, named => by
    refine oneLine_orNull ?_ style nullable
    split
    · exact oneLine_quoted name
    · exact named name (List.mem_singleton_self name)
  | .literal members nullable, _ => oneLine_orNull (oneLine_literals members) style nullable
  | .applied container arguments nullable, named => by
    refine oneLine_orNull (oneLine_container (fun name generic => ?_) ?_) style nullable
    · subst generic
      exact named name List.mem_cons_self
    · have inside : ∀ name ∈ allNamesOf arguments, OneLine name := by
        intro name member
        refine named name ?_
        cases container with
        | generic other => exact List.mem_cons_of_mem other member
        | _ => exact member
      exact oneLine_listed (oneLine_hints style arguments inside)

theorem oneLine_hints (style : TypeHint.Style) :
    (hints : List TypeHint) → (∀ name ∈ allNamesOf hints, OneLine name) →
      ∀ s ∈ TypeHint.texts style hints, OneLine s
  | [], _ => nofun
  | hint :: rest, named => fun s member => by
    rw [allNamesOf, List.forall_mem_append] at named
    rcases List.mem_cons.mp member with rfl | member
    · exact oneLine_hint style hint named.1
    · exact oneLine_hints style rest named.2 s member

end

end ApiBinding.Code
