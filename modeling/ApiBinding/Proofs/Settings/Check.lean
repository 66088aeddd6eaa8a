import ApiBinding.Proofs.Identifier
import ApiBinding.Proofs.Number.Numeral
import ApiBinding.Proofs.Outcome
import ApiBinding.Proofs.Text.Lines
import ApiBinding.Settings.Read

/-!
The checks on names of types and on versions. They let through dotted names and versions of Python 3
in decimal digits of any script, with or without a line feed behind them.
-/

namespace ApiBinding

open Text (OneLine)

namespace Setting

/-- Whether a text is made of ASCII letters, digits and underscores, without a digit in front. -/
def IsWord (s : String) : Prop :=
  ∃ first rest, s.toList = first :: rest ∧ (first.isAlpha = true ∨ first = '_') ∧
    ∀ c ∈ rest, c.isAlphanum = true ∨ c = '_'

/-- Whether a text is one or more words with single points between them. -/
def IsDottedName (s : String) : Prop :=
  ∃ words ≠ [], (∀ word ∈ words, IsWord word) ∧ s = Text.joined "." words

/-- Whether a text is '3.' and one or more characters that count as digits. -/
def IsVersion (isDigit : Char → Bool) (s : String) : Prop :=
  ∃ minor ≠ [], (∀ c ∈ minor, isDigit c = true) ∧ s.toList = '3' :: '.' :: minor

/-- Whether the condition holds of a text, or of what stands in front of a line feed at its end. -/
def UpToFeed (p : String → Prop) (s : String) : Prop :=
  ∃ t, p t ∧ (s = t ∨ s = t ++ "\n")

variable {s : String}

theorem exists_feed (cs : List Char) :
    ∃ feed, cs = withoutLastFeed cs ++ feed ∧ ∀ c ∈ feed, c = '\n' := by
  unfold withoutLastFeed
  split
  next feed =>
    obtain ⟨rest, rfl⟩ := List.getLast?_eq_some_iff.mp feed
    exact ⟨['\n'], by simp, by simp⟩
  next => exact ⟨[], by simp, by simp⟩

theorem withoutLastFeed_of_not_mem {cs : List Char} (free : '\n' ∉ cs) :
    withoutLastFeed cs = cs :=
  if_neg fun last => free (List.mem_of_getLast? last)

theorem withoutLastFeed_append (cs : List Char) : withoutLastFeed (cs ++ ['\n']) = cs := by
  simp [withoutLastFeed]

/-- Looking past a line feed at the end is all that leaving it out comes to. -/
theorem upToFeed_iff {p : String → Prop} (free : ∀ t, p t → '\n' ∉ t.toList) :
    UpToFeed p s ↔ p (String.ofList (withoutLastFeed s.toList)) := by
  constructor
  · rintro ⟨t, fits, rfl | rfl⟩
    · rwa [withoutLastFeed_of_not_mem (free _ fits), String.ofList_toList]
    · have feed : (t ++ "\n").toList = t.toList ++ ['\n'] := by simp
      rwa [feed, withoutLastFeed_append, String.ofList_toList]
  · intro fits
    refine ⟨_, fits, ?_⟩
    unfold withoutLastFeed
    split
    next last =>
      obtain ⟨rest, whole⟩ := List.getLast?_eq_some_iff.mp last
      right
      rw [← String.toList_inj, whole]
      simp
    next => exact .inl String.ofList_toList.symm

theorem isName_iff : isName s.toList = true ↔ IsWord s := by
  unfold IsWord
  cases s.toList with
  | nil => simp [isName]
  | cons c rest => simp [isName, isNameStart, isNameChar]

theorem IsWord.oneLine (h : IsWord s) : OneLine s := by
  obtain ⟨first, rest, whole, starts, inside⟩ := h
  have word (c : Char) (h : c.isAlphanum = true ∨ c = '_') : Text.isLineEnd c = false := by
    rcases h with h | rfl
    · exact Identifier.isLineEnd_of_isWordChar h
    · decide
  have alphanum (h : first.isAlpha = true) : first.isAlphanum = true := by
    rw [Char.isAlphanum, h, Bool.true_or]
  rw [OneLine, whole, List.forall_mem_cons]
  exact ⟨word first (starts.imp_left alphanum), fun c member => word c (inside c member)⟩

theorem IsWord.not_mem_point (h : IsWord s) : '.' ∉ s.toList := by
  obtain ⟨first, rest, whole, starts, inside⟩ := h
  rw [whole, List.mem_cons]
  rintro (rfl | member)
  · revert starts
    decide
  · have point := inside _ member
    revert point
    decide

theorem IsDottedName.oneLine (h : IsDottedName s) : OneLine s := by
  obtain ⟨words, _, each, rfl⟩ := h
  exact (Text.oneLine_joined (by decide)).mpr fun word member => (each word member).oneLine

theorem IsDottedName.not_mem_feed (h : IsDottedName s) : '\n' ∉ s.toList := h.oneLine.not_mem_feed

/-- A name is a dotted one if each of its pieces between points is a word. -/
theorem isDottedName_iff : (Text.pieces (· == '.') s.toList).all isName = true ↔ IsDottedName s := by
  have pieces : (Text.pieces (· == '.') s.toList).all isName = true ↔
      ∀ word ∈ Text.piecesAt '.' s, IsWord word := by
    simp only [Text.piecesAt, List.forall_mem_map, ← isName_iff, String.toList_ofList,
      List.all_eq_true]
  rw [pieces]
  constructor
  · intro each
    refine ⟨Text.piecesAt '.' s, ?_, each, (Text.joined_piecesAt rfl s).symm⟩
    exact List.map_eq_nil_iff.not.mpr (Text.piecesFrom_ne_nil _ _ _)
  · rintro ⟨words, filled, each, rfl⟩
    rwa [Text.piecesAt_joined rfl filled fun word member => (each word member).not_mem_point]

theorem isTypeName_iff : isTypeName s = true ↔ UpToFeed IsDottedName s := by
  rw [upToFeed_iff fun t h => h.not_mem_feed, ← isDottedName_iff, String.toList_ofList,
    isTypeName]

/-- Whether a character is a decimal digit of any script. -/
def isDecimal (c : Char) : Bool := (Text.digitValue? c).isSome

theorem IsVersion.not_mem_feed (h : IsVersion isDecimal s) : '\n' ∉ s.toList := by
  obtain ⟨minor, _, digits, whole⟩ := h
  rw [whole]
  simp only [List.mem_cons, not_or]
  refine ⟨by decide, by decide, fun member => ?_⟩
  have digit := digits _ member
  revert digit
  decide

theorem isVersion_iff : isVersion s = true ↔ UpToFeed (IsVersion isDecimal) s := by
  rw [upToFeed_iff fun t h => h.not_mem_feed, isVersion, IsVersion]
  split
  next minor whole =>
    rw [String.toList_ofList, whole]
    simp [isDecimal]
  next other =>
    refine iff_of_false Bool.false_ne_true ?_
    rintro ⟨minor, _, _, whole⟩
    rw [String.toList_ofList] at whole
    exact other minor whole

/-- Where a text with a line feed or none at its end fulfils the condition, it has none. -/
theorem upToFeed_plain_iff {p : String → Prop} (free : ∀ t, p t → '\n' ∉ t.toList)
    (h : UpToFeed p s) : p s ↔ '\n' ∉ s.toList := by
  refine ⟨free s, fun plain => ?_⟩
  obtain ⟨t, fits, rfl | rfl⟩ := h
  · exact fits
  · simp at plain

theorem oneLine_iff (h : UpToFeed IsDottedName s) : OneLine s ↔ '\n' ∉ s.toList := by
  have plain := upToFeed_plain_iff (fun t => IsDottedName.not_mem_feed) h
  exact ⟨OneLine.not_mem_feed, fun free => (plain.mpr free).oneLine⟩

theorem isDigit_iff {c : Char} : c.isDigit = true ↔ isDecimal c = true ∧ c.toNat < 128 := by
  constructor
  · intro digit
    rw [isDecimal, Numeral.textDigitValue?_of_isDigit digit]
    have := Numeral.toNat_of_isDigit digit
    exact ⟨rfl, by omega⟩
  · rintro ⟨decimal, ascii⟩
    revert decimal
    exact Text.forall_ascii (motive := fun c => isDecimal c = true → c.isDigit = true)
      (by decide +kernel) ascii

theorem isVersion_ascii_iff : IsVersion Char.isDigit s ↔
    IsVersion isDecimal s ∧ ∀ c ∈ s.toList, c.toNat < 128 := by
  constructor
  · rintro ⟨minor, filled, digits, whole⟩
    have each (c : Char) (member : c ∈ minor) := isDigit_iff.mp (digits c member)
    refine ⟨⟨minor, filled, fun c member => (each c member).1, whole⟩, ?_⟩
    rw [whole]
    simp only [List.forall_mem_cons]
    exact ⟨by decide, by decide, fun c member => (each c member).2⟩
  · rintro ⟨⟨minor, filled, digits, whole⟩, ascii⟩
    rw [whole] at ascii
    refine ⟨minor, filled, fun c member => isDigit_iff.mpr ⟨digits c member, ?_⟩, whole⟩
    exact ascii c (List.mem_cons_of_mem _ (List.mem_cons_of_mem _ member))

theorem checkTypeName_eq_ok {setting : Setting} {given : Option String} :
    checkTypeName setting given = .ok () ↔ ∀ name ∈ given, UpToFeed IsDottedName name := by
  cases given with
  | none => simp [checkTypeName]
  | some s =>
    simp only [checkTypeName, Option.mem_some_iff, forall_eq', ← isTypeName_iff]
    split <;> simp_all

theorem checkVersion_eq_ok {s : String} :
    checkVersion s = .ok () ↔ UpToFeed (IsVersion isDecimal) s := by
  rw [checkVersion, ← isVersion_iff]
  split <;> simp_all

end Setting

namespace Settings

variable {settings settings' : Settings}

/-- Settings pass their checks as they are, if each of the checks passes. -/
theorem checked_eq_ok :
    settings.checked = .ok settings' ↔
      Setting.checkTemplate (Setting.mentionsTag settings.classNameTemplate) = .ok () ∧
      Setting.checkTypeName .configurationType settings.configurationType = .ok () ∧
      Setting.checkTypeName .baseClass settings.baseClass = .ok () ∧
      Setting.checkTypeName .baseInterface settings.baseInterface = .ok () ∧
      Setting.checkTypeName .transportType settings.transportType = .ok () ∧
      Setting.checkVersion settings.targetVersion = .ok () ∧ settings = settings' := by
  simp only [checked, bind_eq_ok, Unique.exists_iff, PUnit.default_eq_unit, pure_eq_ok,
    Except.ok.injEq]

/-- Settings come of entries if they are what is read and pass their checks. -/
theorem ofEntries_eq_ok {entries : List (Scalar × Value)} :
    Settings.ofEntries entries = .ok settings ↔
      readEntries [] standard entries = .ok settings ∧ settings.checked = .ok settings := by
  rw [Settings.ofEntries, bind_eq_ok]
  constructor
  · rintro ⟨read, given, checked⟩
    obtain ⟨_, _, _, _, _, _, rfl⟩ := checked_eq_ok.mp checked
    exact ⟨given, checked⟩
  · exact fun ⟨given, checked⟩ => ⟨settings, given, checked⟩

theorem isVersion_of_checked (valid : settings.checked = .ok settings) :
    Setting.isVersion settings.targetVersion = true := by
  obtain ⟨_, _, _, _, _, version, _⟩ := checked_eq_ok.mp valid
  exact Setting.isVersion_iff.mpr (Setting.checkVersion_eq_ok.mp version)

end Settings

end ApiBinding
