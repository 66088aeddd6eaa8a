import ApiBinding.Identifier
import ApiBinding.Proofs.Text.Lines
import ApiBinding.Proofs.Text.Upper

/-!
What identifiers are made of: names of types of ASCII letters and digits, other names of small
letters, digits and underscores. No name of a type is one of a support class.
-/

namespace ApiBinding.Identifier

/-- Whether a character may stand in a name that is written in small letters. -/
def isSmall (c : Char) : Bool := c.isLower || c.isDigit || c == '_'

theorem isAlphanum_eq (c : Char) : c.isAlphanum = (c.isUpper || c.isLower || c.isDigit) := rfl

theorem toNat_lt_of_isAlphanum {c : Char} (h : c.isAlphanum = true) : c.toNat < 128 := by
  delta Char.isAlphanum Char.isAlpha Char.isUpper Char.isLower Char.isDigit at h
  simp only [Bool.or_eq_true, Bool.and_eq_true, decide_eq_true_eq, UInt32.le_iff_toNat_le] at h
  rw [← Char.toNat_val]
  rcases h with (⟨_, h⟩ | ⟨_, h⟩) | ⟨_, h⟩
  · exact Nat.lt_of_le_of_lt h (by decide)
  · exact Nat.lt_of_le_of_lt h (by decide)
  · exact Nat.lt_of_le_of_lt h (by decide)

theorem isWordChar_of_isBlank {c : Char} (h : Text.isBlank c = true) : isWordChar c = false := by
  by_contra word
  rw [isWordChar, Bool.not_eq_false] at word
  have ascii := toNat_lt_of_isAlphanum word
  revert h word
  exact Text.forall_ascii
    (motive := fun c => Text.isBlank c = true → c.isAlphanum = true → False)
    (by decide +kernel) ascii

theorem isLineEnd_of_isWordChar {c : Char} (h : isWordChar c = true) : Text.isLineEnd c = false := by
  rw [← Bool.not_eq_true]
  intro ends
  rw [isWordChar_of_isBlank (Text.isBlank_of_isLineEnd ends)] at h
  cases h

theorem isAlphanum_toUpper {c : Char} (h : c.isAlphanum = true) : c.toUpper.isAlphanum = true := by
  have ascii := toNat_lt_of_isAlphanum h
  revert h
  exact Text.forall_ascii
    (motive := fun c => c.isAlphanum = true → c.toUpper.isAlphanum = true) (by decide +kernel) ascii

theorem isSmall_toLower {c : Char} (h : c.isUpper = true) : isSmall c.toLower = true := by
  have ascii := toNat_lt_of_isAlphanum (c := c) (by rw [isAlphanum_eq, h]; rfl)
  revert h
  exact Text.forall_ascii
    (motive := fun c => c.isUpper = true → isSmall c.toLower = true) (by decide +kernel) ascii

theorem all_capitalized {cs : List Char} (h : cs.all Char.isAlphanum = true) :
    (capitalized cs).all Char.isAlphanum = true := by
  cases cs with
  | nil => rfl
  | cons c cs =>
    rw [List.all_cons, Bool.and_eq_true] at h
    rw [capitalized, List.all_cons, isAlphanum_toUpper h.1, h.2]
    rfl

theorem all_pascal (cs : List Char) : (pascal cs).all Char.isAlphanum = true := by
  rw [pascal, List.all_flatMap, List.all_eq_true]
  intro piece member
  have whole := Text.all_piecesFrom [] rfl piece member
  exact all_capitalized (by simpa [isWordChar] using whole)

theorem all_snakeFrom {cs : List Char} (h : cs.all (fun c => c.isUpper || isSmall c) = true)
    (before : Option Char) : (snakeFrom before cs).all isSmall = true := by
  induction cs generalizing before with
  | nil => rfl
  | cons c cs ih =>
    rw [List.all_cons, Bool.and_eq_true] at h
    rw [snakeFrom]
    split
    next upper =>
      rw [List.all_append, ih h.2, Bool.and_true]
      split
      · rw [List.all_cons, List.all_cons, isSmall_toLower upper]
        rfl
      · rw [List.all_cons, isSmall_toLower upper]
        rfl
    next other =>
      rw [List.all_cons, ih h.2, Bool.and_true]
      simpa [other] using h.1

theorem validChar_cases (c : Char) :
    ((validChar c).isUpper || isSmall (validChar c)) = true := by
  unfold validChar
  split
  next valid =>
    rw [Bool.or_eq_true, isWordChar] at valid
    rcases valid with word | underscore
    · rw [isAlphanum_eq] at word
      simp only [isSmall, ← Bool.or_assoc, word, Bool.true_or]
    · simp [isSmall, underscore]
  next => rfl

/-- What holds of the characters of styled names and of every text that may be added to them holds
of the characters of a name. -/
theorem all_ofRaw {p : Char → Bool} {role : Role} (raw : String)
    (styledAll : ∀ cs, (styled role cs).all p = true)
    (fixed : (fallbackName role).toList.all p ∧ (digitLead role).toList.all p ∧
      (freeingSuffix role).toList.all p) : (ofRaw role raw).toList.all p = true := by
  have started (name : List Char) (h : name.all p = true) :
      (wellStarted role name).toList.all p = true := by
    unfold wellStarted
    split
    next => exact fixed.1
    next =>
      split
      · rw [String.toList_append, List.all_append, fixed.2.1, String.toList_ofList, h]
        rfl
      · rwa [String.toList_ofList]
  unfold ofRaw freed
  split
  · rw [String.toList_append, List.all_append, started _ (styledAll _), fixed.2.2]
    rfl
  · exact started _ (styledAll _)

theorem all_type (raw : String) : (ofRaw .type raw).toList.all Char.isAlphanum = true :=
  all_ofRaw raw all_pascal (by decide)

theorem oneLine_type (raw : String) : Text.OneLine (ofRaw .type raw) := fun c member =>
  isLineEnd_of_isWordChar (List.all_eq_true.mp (all_type raw) c member)

theorem all_small {role : Role} (other : role ≠ .type) (raw : String) :
    (ofRaw role raw).toList.all isSmall = true := by
  have valid (cs : List Char) :
      (cs.map validChar).all (fun c => c.isUpper || isSmall c) = true := by
    rw [List.all_map, List.all_eq_true]
    exact fun c _ => validChar_cases c
  cases role with
  | type => exact absurd rfl other
  | parameter => exact all_ofRaw raw (fun cs => all_snakeFrom (valid cs) none) (by decide)
  | method => exact all_ofRaw raw (fun cs => all_snakeFrom (valid cs) none) (by decide)

theorem ofRaw_ne_empty (role : Role) (raw : String) : ofRaw role raw ≠ "" := by
  have filled (name : List Char) : wellStarted role name ≠ "" := by
    unfold wellStarted
    split
    · cases role <;> decide
    · split <;> simp
  unfold ofRaw freed
  split
  · simp [filled]
  · exact filled _

/-- No made name is one that must be left alone. -/
theorem isForbidden_ofRaw (role : Role) (raw : String) :
    isForbidden role (ofRaw role raw) = false := by
  unfold ofRaw freed
  split
  next taken =>
    exact isForbidden_append_freeingSuffix role _ (List.contains_iff_mem.mp taken)
  next free => simpa using free

theorem toUpper_starts {c : Char} (h : c.isAlphanum = true) :
    (c.toUpper.isUpper || c.toUpper.isDigit) = true := by
  have ascii := toNat_lt_of_isAlphanum h
  revert h
  exact Text.forall_ascii (motive := fun c => c.isAlphanum = true →
    (c.toUpper.isUpper || c.toUpper.isDigit) = true) (by decide +kernel) ascii

theorem head_flatMap_capitalized {words : List (List Char)}
    (h : ∀ word ∈ words, word.all Char.isAlphanum = true) :
    ∀ c ∈ (words.flatMap capitalized).head?, (c.isUpper || c.isDigit) = true := by
  induction words with
  | nil => nofun
  | cons word words ih =>
    rw [List.forall_mem_cons] at h
    cases word with
    | nil => exact ih h.2
    | cons c word =>
      rintro _ ⟨⟩
      rw [List.all_cons, Bool.and_eq_true] at h
      exact toUpper_starts h.1.1

theorem head_pascal (cs : List Char) :
    ∀ c ∈ (pascal cs).head?, (c.isUpper || c.isDigit) = true := by
  refine head_flatMap_capitalized fun word member => ?_
  have whole := Text.all_piecesFrom [] rfl word member
  simpa [isWordChar] using whole

/-- A name starts as styled names do, digits aside, and as the texts do that may stand in front. -/
theorem head_ofRaw {p : Char → Bool} {role : Role} (raw : String)
    (styledHead : ∀ cs, ∀ c ∈ (styled role cs).head?, (p c || c.isDigit) = true)
    (fixed : (fallbackName role).toList.head?.any p ∧ (digitLead role).toList.head?.any p) :
    (ofRaw role raw).toList.head?.any p = true := by
  have started (cs : List Char) :
      (wellStarted role (styled role cs)).toList.head?.any p = true := by
    have start := styledHead cs
    unfold wellStarted
    split
    next => exact fixed.1
    next c rest name =>
      rw [name] at start
      split
      next => exact Text.head_append fixed.2 _
      next other => simpa [other] using start
  unfold ofRaw freed
  split
  · exact Text.head_append (started _) _
  · exact started _

/-- The name of a type starts with a capital. -/
theorem head_type (raw : String) : (ofRaw .type raw).toList.head?.any Char.isUpper = true :=
  head_ofRaw raw head_pascal (by decide)

end ApiBinding.Identifier
