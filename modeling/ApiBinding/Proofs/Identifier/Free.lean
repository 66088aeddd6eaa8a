import ApiBinding.Proofs.Identifier
import Mathlib.Data.Set.Operations
import Mathlib.Logic.Function.Iterate

/-!
The names that are free in a role. Every name that is made for the role is free, and a free name is
made of itself, so that the free names are all that can be made.
-/

namespace ApiBinding.Identifier

/-- Whether a character may stand in the names of a role. -/
def isNameChar : Role → Char → Bool
  | .type, c => c.isAlphanum
  | _, c => isSmall c

/-- Whether the names of a role may start with a character that may stand in them. -/
def isNameStart : Role → Char → Bool
  | .type, c => c.isUpper
  | _, c => !c.isDigit

/-- Whether a name can be written in a role as it is. -/
structure IsFree (role : Role) (name : String) : Prop where
  starts : name.toList.head?.any (isNameStart role) = true
  chars : name.toList.all (isNameChar role) = true
  allowed : isForbidden role name = false

section

variable {role : Role} {c : Char} {cs : List Char}

theorem head_styled (role : Role) (cs : List Char) :
    ∀ c ∈ (styled role cs).head?, (isNameStart role c || c.isDigit) = true := by
  cases role with
  | type => exact head_pascal cs
  | parameter => simp [isNameStart]
  | method => simp [isNameStart]

theorem isFree_ofRaw (role : Role) (raw : String) : IsFree role (ofRaw role raw) where
  starts := head_ofRaw raw (head_styled role) (by cases role <;> decide)
  chars := by
    cases role with
    | type => exact all_type raw
    | parameter => exact all_small (by decide) raw
    | method => exact all_small (by decide) raw
  allowed := isForbidden_ofRaw role raw

theorem isNameChar_ne_mark (h : isNameChar role c = true) : c ≠ Text.mark := by
  rintro rfl
  cases role <;> exact absurd h (by decide)

/-- A text without marks has a code for each character. -/
theorem singles_of_unmarked (h : ∀ c ∈ cs, c ≠ Text.mark) : singles cs = cs := by
  induction cs with
  | nil => rfl
  | cons c cs ih =>
    rw [List.forall_mem_cons] at h
    have read : Text.units (c :: cs) = [c] :: Text.units cs := by
      cases cs with
      | nil => rfl
      | cons d cs => rw [Text.units, if_neg h.1]
    rw [singles, read, List.filterMap_cons]
    exact congrArg (c :: ·) (ih h.2)

theorem validChar_of_isSmall (h : isSmall c = true) : validChar c = c := by
  rw [isSmall, Bool.or_eq_true] at h
  rw [validChar, if_pos]
  rcases h with word | underscore
  · rw [isWordChar, isAlphanum_eq, Bool.or_assoc c.isUpper, word, Bool.or_true, Bool.true_or]
  · rw [underscore, Bool.or_true]

theorem isUpper_of_isSmall (h : isSmall c = true) : c.isUpper = false := by
  by_contra capital
  rw [Bool.not_eq_false] at capital
  have ascii := toNat_lt_of_isAlphanum (c := c) (by rw [isAlphanum_eq, capital]; rfl)
  revert h capital
  exact Text.forall_ascii
    (motive := fun c => isSmall c = true → c.isUpper = true → False) (by decide +kernel) ascii

theorem toUpper_of_isUpper (h : c.isUpper = true) : c.toUpper = c := by
  have ascii := toNat_lt_of_isAlphanum (c := c) (by rw [isAlphanum_eq, h]; rfl)
  revert h
  exact Text.forall_ascii
    (motive := fun c => c.isUpper = true → c.toUpper = c) (by decide +kernel) ascii

/-- Without capitals there is nothing to write small, and no word to set apart. -/
theorem snakeFrom_of_small (h : ∀ c ∈ cs, c.isUpper = false) (before : Option Char) :
    snakeFrom before cs = cs := by
  induction cs generalizing before with
  | nil => rfl
  | cons c cs ih =>
    rw [List.forall_mem_cons] at h
    rw [snakeFrom, if_neg (by simp [h.1]), ih h.2]

theorem snake_of_small (h : cs.all isSmall = true) : snakeFrom none (cs.map validChar) = cs := by
  rw [List.all_eq_true] at h
  have valid : cs.map validChar = cs :=
    (List.map_congr_left fun c member => validChar_of_isSmall (h c member)).trans (List.map_id _)
  rw [valid, snakeFrom_of_small fun c member => isUpper_of_isSmall (h c member)]

/-- A single word that starts with a capital keeps its letters. -/
theorem pascal_of_capital (starts : cs.head?.any Char.isUpper = true)
    (h : cs.all Char.isAlphanum = true) : pascal cs = cs := by
  have whole : ∀ c ∈ cs, (!isWordChar c) = false := fun c member => by
    rw [isWordChar, List.all_eq_true.mp h c member, Bool.not_true]
  rw [pascal, Text.pieces_whole whole, List.flatMap_singleton]
  cases cs with
  | nil => rfl
  | cons c cs => rw [capitalized, toUpper_of_isUpper starts]

theorem styled_of_free (starts : cs.head?.any (isNameStart role) = true)
    (h : cs.all (isNameChar role) = true) : styled role cs = cs := by
  cases role with
  | type => exact pascal_of_capital starts h
  | parameter => exact snake_of_small h
  | method => exact snake_of_small h

theorem isDigit_of_isNameStart (h : isNameStart role c = true) : c.isDigit = false := by
  cases role with
  | type =>
    by_contra digit
    rw [Bool.not_eq_false] at digit
    have ascii := toNat_lt_of_isAlphanum (c := c) (by rw [isAlphanum_eq, digit, Bool.or_true])
    revert h digit
    exact Text.forall_ascii
      (motive := fun c => c.isUpper = true → c.isDigit = true → False) (by decide +kernel) ascii
  | parameter => simpa [isNameStart] using h
  | method => simpa [isNameStart] using h

theorem wellStarted_of_free (starts : cs.head?.any (isNameStart role) = true) :
    wellStarted role cs = String.ofList cs := by
  cases cs with
  | nil => cases starts
  | cons c cs => rw [wellStarted, isDigit_of_isNameStart starts, if_neg Bool.false_ne_true]

theorem ofRaw_of_free {name : String} (h : IsFree role name) : ofRaw role name = name := by
  have unmarked : ∀ c ∈ name.toList, c ≠ Text.mark := fun c member =>
    isNameChar_ne_mark (List.all_eq_true.mp h.chars c member)
  rw [ofRaw, singles_of_unmarked unmarked, styled_of_free h.starts h.chars,
    wellStarted_of_free h.starts, String.ofList_toList, freed, h.allowed,
    if_neg Bool.false_ne_true]

end

/-- Suffixes are added as long as a name is forbidden. -/
theorem freed_eq_iterate (role : Role) (start : String) :
    ∃ n, (∀ m < n, isForbidden role ((· ++ freeingSuffix role)^[m] start) = true) ∧
      freed role start = (· ++ freeingSuffix role)^[n] start := by
  unfold freed
  split
  next taken =>
    refine ⟨1, fun m first => ?_, rfl⟩
    obtain rfl : m = 0 := Nat.lt_one_iff.mp first
    exact taken
  next => exact ⟨0, fun m first => absurd first (Nat.not_lt_zero m), rfl⟩

/-- The name that is made for a role before any suffix is added. -/
def unsuffixed (role : Role) (raw : String) : String :=
  wellStarted role (styled role (singles raw.toList))

/-- The names that can be made are the free names: to every text suffixes are added until it is
free, and free names stay as they are. -/
theorem range_ofRaw (role : Role) :
    Set.range (ofRaw role) = {name | IsFree role name} ∧
      (∀ raw, ∃ n, (∀ m < n,
          isForbidden role ((· ++ freeingSuffix role)^[m] (unsuffixed role raw)) = true) ∧
        IsFree role ((· ++ freeingSuffix role)^[n] (unsuffixed role raw)) ∧
        ofRaw role raw = (· ++ freeingSuffix role)^[n] (unsuffixed role raw)) ∧
      (∀ name, IsFree role name → ofRaw role name = name) ∧
      ∀ raw, ofRaw role (ofRaw role raw) = ofRaw role raw := by
  refine ⟨Set.ext fun name => ⟨?_, fun free => ⟨name, ofRaw_of_free free⟩⟩, fun raw => ?_,
    fun name free => ofRaw_of_free free, fun raw => ofRaw_of_free (isFree_ofRaw role raw)⟩
  · rintro ⟨raw, rfl⟩
    exact isFree_ofRaw role raw
  · obtain ⟨n, taken, same⟩ := freed_eq_iterate role (unsuffixed role raw)
    have same : ofRaw role raw = (· ++ freeingSuffix role)^[n] (unsuffixed role raw) := same
    exact ⟨n, taken, same ▸ isFree_ofRaw role raw, same⟩

theorem ofRaw_suffixed : IsFree .parameter "self_" ∧ ofRaw .parameter "self_" = "self_" := by
  have free : IsFree .parameter "self_" := ⟨by decide, by decide, by decide⟩
  exact ⟨free, (range_ofRaw .parameter).2.2.1 "self_" free⟩

end ApiBinding.Identifier
