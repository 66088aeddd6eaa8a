import ApiBinding.Proofs.Identifier
import Mathlib

/-!
Writing a name in small letters puts underscores between its words and changes nothing else: letters
and digits stay in their order, and the underscores that were there before stay as they were.
-/

namespace ApiBinding.Identifier

open Text (piecesFrom)

/-- Whether a text is another one with underscores put in, each of them directly between two letters
or digits. -/
inductive Separated : List Char → List Char → Prop
  | nil : Separated [] []
  | next (c : Char) {cs out : List Char} (rest : Separated cs out) : Separated (c :: cs) (c :: out)
  | apart {b c : Char} {cs out : List Char} (before : isWordChar b = true)
      (after : isWordChar c = true) (rest : Separated (c :: cs) (c :: out)) :
      Separated (b :: c :: cs) (b :: '_' :: c :: out)

/-- The stretches of underscores in a text: in front of, between and behind its other characters,
empty ones included. -/
def stretches (cs : List Char) : List (List Char) := Text.pieces (· != '_') cs

/-- Whether stretches of underscores are as long as others, but for empty ones between the first and
the last that have become one underscore long. -/
structure Widened (before after : List (List Char)) : Prop where
  first : after.head? = before.head?
  last : after.getLast? = before.getLast?
  each : List.Forall₂ (fun s t => t = s ∨ s = [] ∧ t = ['_']) before after

/-- Whether a word starts with a character of a text: with a capital behind a small letter or a
digit, or with one behind another capital and in front of a small letter. -/
def WordStarts (before c : Char) (rest : List Char) : Prop :=
  c.isUpper = true ∧ (before.isLower = true ∨ before.isDigit = true ∨
    before.isUpper = true ∧ rest.head?.any Char.isLower = true)

instance (before c : Char) (rest : List Char) : Decidable (WordStarts before c rest) :=
  inferInstanceAs (Decidable (_ ∧ (_ ∨ _ ∨ _ ∧ _)))

/-- What is put between two neighbouring characters of a text. -/
def separator (before c : Char) (rest : List Char) : List Char :=
  if WordStarts before c rest then ['_'] else []

/-- Whether a text is another one in small letters, in which nothing is new but an underscore in
front of each word that starts inside. -/
structure WordsSeparated (cs out : List Char) : Prop where
  small : ∀ c ∈ out, c.isUpper = false
  letters : out.filter (· != '_') = (cs.map Char.toLower).filter (· != '_')
  separated : Separated (cs.map Char.toLower) out
  kept : Widened (stretches cs) (stretches out)
  /-- Between two neighbours stands an underscore exactly if the second one starts a word. -/
  starts : ∀ front b c back, cs = front ++ b :: c :: back → ∃ left right,
    out = left ++ separator b c back ++ right ∧
      Separated ((front ++ [b]).map Char.toLower) left ∧
      Separated ((c :: back).map Char.toLower) right

section

variable {b c : Char} {cs out rest : List Char}

theorem ne_underscore (h : isWordChar c = true) : (c != '_') = true := by
  rw [bne_iff_ne]
  rintro rfl
  exact absurd h (by decide)

theorem Separated.filter_eq (h : Separated cs out) :
    out.filter (· != '_') = cs.filter (· != '_') := by
  induction h with
  | nil => rfl
  | next c _ ih => rw [List.filter_cons, List.filter_cons, ih]
  | @apart b c cs out _ _ _ ih =>
    have dropped : ('_' :: c :: out).filter (· != '_') = (c :: out).filter (· != '_') := rfl
    change ([b] ++ '_' :: c :: out).filter (· != '_') = ([b] ++ c :: cs).filter (· != '_')
    rw [List.filter_append, List.filter_append, dropped, ih]

theorem Separated.all {p : Char → Prop} (h : Separated cs out) (underscore : p '_')
    (each : ∀ c ∈ cs, p c) : ∀ c ∈ out, p c := by
  induction h with
  | nil => exact each
  | next c _ ih =>
    rw [List.forall_mem_cons] at each ⊢
    exact ⟨each.1, ih each.2⟩
  | apart _ _ _ ih =>
    rw [List.forall_mem_cons] at each ⊢
    exact ⟨each.1, List.forall_mem_cons.mpr ⟨underscore, ih each.2⟩⟩

theorem piecesFrom_other (other : (c != '_') = true) (start cs : List Char) :
    piecesFrom (· != '_') start (c :: cs) = start.reverse :: piecesFrom (· != '_') [] cs := by
  rw [piecesFrom, if_pos other]

/-- The stretch in which an underscore is put was empty, between two letters or digits. -/
theorem piecesFrom_apart (before : isWordChar b = true) (after : isWordChar c = true)
    (start cs out : List Char) :
    piecesFrom (· != '_') start (b :: c :: cs) =
        start.reverse :: [] :: piecesFrom (· != '_') [] cs ∧
      piecesFrom (· != '_') start (b :: '_' :: c :: out) =
        start.reverse :: ['_'] :: piecesFrom (· != '_') [] out := by
  have underscore : piecesFrom (· != '_') [] ('_' :: c :: out) =
      piecesFrom (· != '_') ['_'] (c :: out) := rfl
  rw [piecesFrom_other (ne_underscore before), piecesFrom_other (ne_underscore after),
    piecesFrom_other (ne_underscore before), underscore, piecesFrom_other (ne_underscore after)]
  exact ⟨rfl, rfl⟩

theorem Widened.cons (s : List Char) {before after : List (List Char)} (h : Widened before after) :
    Widened (s :: before) (s :: after) where
  first := rfl
  last := by rw [List.getLast?_cons, List.getLast?_cons, h.last]
  each := .cons (.inl rfl) h.each

theorem Widened.apart (s : List Char) {before after : List (List Char)} (filled : before ≠ [])
    (h : Widened ([] :: before) ([] :: after)) :
    Widened (s :: [] :: before) (s :: ['_'] :: after) := by
  obtain ⟨_, last, _ | ⟨_, rest⟩⟩ := h
  refine ⟨rfl, ?_, .cons (.inl rfl) (.cons (.inr ⟨rfl, rfl⟩) rest)⟩
  cases rest with
  | nil => exact absurd rfl filled
  | cons => simpa only [List.getLast?_cons_cons] using last

theorem Separated.widened (h : Separated cs out) (start : List Char) :
    Widened (piecesFrom (· != '_') start cs) (piecesFrom (· != '_') start out) := by
  -- The stretch read so far is the same in both texts, since none is new in front of the character
  -- that ends it.
  induction h generalizing start with
  | nil => exact ⟨rfl, rfl, .cons (.inl rfl) .nil⟩
  | next c _ ih =>
    rw [piecesFrom, piecesFrom]
    split
    · exact (ih []).cons start.reverse
    · exact ih (c :: start)
  | @apart b c cs out before after _ ih =>
    obtain ⟨text, parted⟩ := piecesFrom_apart before after start cs out
    have further := ih []
    rw [piecesFrom_other (ne_underscore after), piecesFrom_other (ne_underscore after)] at further
    rw [text, parted]
    exact further.apart start.reverse (Text.piecesFrom_ne_nil _ _ _)

theorem isWordChar_iff :
    isWordChar c = true ↔ c.isUpper = true ∨ c.isLower = true ∨ c.isDigit = true := by
  rw [isWordChar, isAlphanum_eq, Bool.or_eq_true, Bool.or_eq_true, or_assoc]

theorem isWordChar_toLower (c : Char) : isWordChar c.toLower = isWordChar c := by
  by_cases capital : c.isUpper = true
  · have letter : c.isAlpha = true := by rw [Char.isAlpha, capital, Bool.true_or]
    rw [isWordChar_iff.mpr (.inl capital), isWordChar, Char.isAlphanum,
      Char.isAlpha_toLower_eq_isAlpha, letter, Bool.true_or]
  · rw [Char.toLower_eq_of_not_isUpper capital]

theorem toLower_bne_underscore (c : Char) : (c.toLower != '_') = (c != '_') := by
  by_cases capital : c.isUpper = true
  · have word : isWordChar c = true := isWordChar_iff.mpr (.inl capital)
    rw [ne_underscore word, ne_underscore ((isWordChar_toLower c).trans word)]
  · rw [Char.toLower_eq_of_not_isUpper capital]

theorem stretches_map_toLower (cs : List Char) :
    stretches (cs.map Char.toLower) = stretches cs := by
  have each (start : List Char) : piecesFrom (· != '_') start (cs.map Char.toLower) =
      piecesFrom (· != '_') start cs := by
    induction cs generalizing start with
    | nil => rfl
    | cons c cs ih =>
      rw [List.map_cons, piecesFrom, piecesFrom, toLower_bne_underscore, ih, ih]
      split
      next => rfl
      next underscore =>
        obtain rfl : c = '_' := by simpa using underscore
        rfl
  exact each []

theorem WordStarts.isWordChar (h : WordStarts b c rest) :
    isWordChar b = true ∧ isWordChar c = true := by
  obtain ⟨capital, before⟩ := h
  refine ⟨isWordChar_iff.mpr ?_, isWordChar_iff.mpr (.inl capital)⟩
  tauto

theorem startsWord_iff (b c : Char) (rest : List Char) :
    (c.isUpper = true ∧ startsWord (some b) rest.head? = true) ↔ WordStarts b c rest := by
  have word : b.isUpper = true ∨ b.isLower = true ∨ b.isDigit = true → (b != '_') = true :=
    fun h => ne_underscore (isWordChar_iff.mpr h)
  rw [startsWord, WordStarts]
  simp only [Bool.and_eq_true, Bool.or_eq_true]
  cases rest.head? with
  | none =>
    simp only [Option.map_none, Option.getD_none, Option.any_none]
    tauto
  | some d =>
    simp only [Option.map_some, Option.getD_some, Option.any_some]
    tauto

theorem snakeFrom_some_cons (b c : Char) (rest : List Char) :
    snakeFrom (some b) (c :: rest) =
      separator b c rest ++ c.toLower :: snakeFrom (some c) rest := by
  have starts := startsWord_iff b c rest
  rw [snakeFrom, separator]
  split
  next capital =>
    simp only [capital, true_and] at starts
    simp only [starts]
    split <;> rfl
  next other =>
    rw [if_neg fun start => other start.1, Char.toLower_eq_of_not_isUpper other]
    rfl

theorem snakeFrom_none_cons (c : Char) (rest : List Char) :
    snakeFrom none (c :: rest) = c.toLower :: snakeFrom (some c) rest := by
  rw [snakeFrom]
  split
  next => rfl
  next other => rw [Char.toLower_eq_of_not_isUpper other]

/-- A character in front of what is separated, with whatever is put between the two. -/
theorem Separated.further (rest : List Char) (h : Separated (c.toLower :: cs) (c.toLower :: out)) :
    Separated (b.toLower :: c.toLower :: cs)
      (b.toLower :: (separator b c rest ++ c.toLower :: out)) := by
  unfold separator
  split
  next starts =>
    obtain ⟨before, after⟩ := starts.isWordChar
    exact .apart ((isWordChar_toLower b).trans before) ((isWordChar_toLower c).trans after) h
  next => exact .next _ h

theorem separated_snakeFrom (b : Char) (cs : List Char) :
    Separated (b.toLower :: cs.map Char.toLower) (b.toLower :: snakeFrom (some b) cs) := by
  induction cs generalizing b with
  | nil => exact .next _ .nil
  | cons c cs ih =>
    rw [snakeFrom_some_cons]
    exact (ih c).further cs

theorem separated_snake (cs : List Char) :
    Separated (cs.map Char.toLower) (snakeFrom none cs) := by
  cases cs with
  | nil => exact .nil
  | cons c cs =>
    rw [snakeFrom_none_cons]
    exact separated_snakeFrom c cs

/-- What is made of the beginning of a text ends with the last character of it. -/
theorem snakeFrom_append (a : Char) (front : List Char) (b : Char) (rest : List Char) :
    ∃ left, snakeFrom (some a) (front ++ b :: rest) = left ++ snakeFrom (some b) rest ∧
      Separated (a.toLower :: (front ++ [b]).map Char.toLower) (a.toLower :: left) := by
  induction front generalizing a with
  | nil =>
    refine ⟨separator a b rest ++ [b.toLower], ?_, (Separated.next _ .nil).further rest⟩
    rw [List.nil_append, snakeFrom_some_cons]
    simp
  | cons c front ih =>
    obtain ⟨left, text, separated⟩ := ih c
    refine ⟨separator a c (front ++ b :: rest) ++ c.toLower :: left, ?_, separated.further _⟩
    rw [List.cons_append, snakeFrom_some_cons, text]
    simp

theorem snake_append (front : List Char) (b : Char) (rest : List Char) :
    ∃ left, snakeFrom none (front ++ b :: rest) = left ++ snakeFrom (some b) rest ∧
      Separated ((front ++ [b]).map Char.toLower) left := by
  cases front with
  | nil => exact ⟨[b.toLower], snakeFrom_none_cons b rest, .next _ .nil⟩
  | cons a front =>
    obtain ⟨left, text, separated⟩ := snakeFrom_append a front b rest
    refine ⟨a.toLower :: left, ?_, separated⟩
    rw [List.cons_append, snakeFrom_none_cons, text]
    rfl

/-- Writing a text in small letters puts an underscore in front of each word that starts inside of
it, between two letters or digits, and keeps all else: the letters and digits in their order, and
the number of underscores in every place where there are any. -/
theorem words_separated (cs : List Char) : WordsSeparated cs (snakeFrom none cs) := by
  have separated := separated_snake cs
  refine ⟨?_, separated.filter_eq, separated, ?_, ?_⟩
  · refine separated.all (by decide) ?_
    rw [List.forall_mem_map]
    exact fun c _ => Char.isUpper_toLower_eq_false c
  · rw [← stretches_map_toLower cs]
    exact separated.widened []
  · rintro front b c back rfl
    obtain ⟨left, text, before⟩ := snake_append front b (c :: back)
    refine ⟨left, c.toLower :: snakeFrom (some c) back, ?_, before, separated_snakeFrom c back⟩
    rw [text, snakeFrom_some_cons, List.append_assoc]

example : snakeFrom none "GetHTTPUrl2Go__X_".toList = "get_http_url2_go__x_".toList := by
  decide

end

end ApiBinding.Identifier
