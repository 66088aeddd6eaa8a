import ApiBinding.Number.Numeral
import ApiBinding.Proofs.Text.Upper

/-!
What the reader of whole numbers makes of digits: of ASCII digits their decimal value, and of digits
of any script some number, as long as they are not too many.
-/

namespace ApiBinding.Numeral

variable {c : Char} {cs : List Char}

theorem toNat_of_isDigit (digit : c.isDigit = true) : 48 ≤ c.toNat ∧ c.toNat ≤ 57 := by
  simpa [Char.isDigit, UInt32.le_iff_toNat_le] using digit

theorem isDigit_of_mem_toString {n : Nat} (h : c ∈ (toString n).toList) : c.isDigit = true :=
  Nat.isDigit_of_mem_toDigits (by decide) (by decide) (Nat.toList_repr ▸ h)

theorem head_toString (n : Nat) : (toString n).toList.head?.any Char.isDigit = true := by
  have filled : (toString n).toList ≠ [] := by
    rw [Nat.toString_eq_repr, Nat.toList_repr]
    exact Nat.toDigits_ne_nil
  obtain ⟨c, rest, text⟩ := List.exists_cons_of_ne_nil filled
  rw [text]
  exact isDigit_of_mem_toString (by rw [text]; exact List.mem_cons_self ..)

theorem forall_digits {motive : Char → Prop}
    (each : ∀ first ∈ Text.zeros, ∀ n < 10, motive (Char.ofNat (first + n)))
    (digit : (Text.digitValue? c).isSome = true) : motive c := by
  rw [Text.digitValue?, Option.isSome_map] at digit
  obtain ⟨first, found⟩ := Option.isSome_iff_exists.mp digit
  have range : first ≤ c.toNat ∧ c.toNat < first + 10 := by simpa using List.find?_some found
  have here := each first (List.mem_of_find?_eq_some found) (c.toNat - first) (by omega)
  rwa [Nat.add_sub_of_le range.1, Char.ofNat_toNat] at here

/-- No digit of any script is something else that may stand in a numeral. -/
theorem plain_of_digit (digit : (Text.digitValue? c).isSome = true) :
    isMargin c = false ∧ c ≠ '-' ∧ c ≠ '+' ∧ c ≠ '_' ∧ c ≠ '.' :=
  forall_digits (motive := fun c => isMargin c = false ∧ c ≠ '-' ∧ c ≠ '+' ∧ c ≠ '_' ∧ c ≠ '.')
    (by decide +kernel) digit

theorem exists_digitValue (digit : (Text.digitValue? c).isSome = true) :
    ∃ n < 10, digitValue? c = some n := by
  obtain ⟨n, value⟩ := Option.isSome_iff_exists.mp digit
  refine ⟨n, ?_, by rw [digitValue?, value, Option.some_or]⟩
  obtain ⟨first, found, rfl⟩ := Option.map_eq_some_iff.mp value
  have range : first ≤ c.toNat ∧ c.toNat < first + 10 := by simpa using List.find?_some found
  omega

theorem textDigitValue?_of_isDigit (digit : c.isDigit = true) :
    Text.digitValue? c = some (c.toNat - 48) := by
  have ascii : c.toNat < 128 := by have := toNat_of_isDigit digit; omega
  revert digit
  exact Text.forall_ascii
    (motive := fun c => c.isDigit = true → Text.digitValue? c = some (c.toNat - 48))
    (by decide +kernel) ascii

theorem digitValue?_of_isDigit (digit : c.isDigit = true) :
    digitValue? c = some (c.toNat - 48) := by
  rw [digitValue?, textDigitValue?_of_isDigit digit, Option.some_or]

theorem hexValue?_of_isDigit (digit : c.isDigit = true) :
    Digits.hexValue? c = some (c.toNat - 48) := by
  rw [Digits.hexValue?, if_pos digit]

theorem ne_of_isDigit {d : Char} (digit : c.isDigit = true) (other : d.isDigit = false) :
    c ≠ d := by
  rintro rfl
  simp [other] at digit

section

variable {margin : List Char} (digits : ∀ c ∈ cs, (Text.digitValue? c).isSome = true)

include digits

theorem trim_digits (filled : cs ≠ []) (blank : ∀ c ∈ margin, isMargin c = true) :
    trim (cs ++ margin) = cs := by
  have kept (ds rest : List Char) (hds : ∀ c ∈ ds, (Text.digitValue? c).isSome = true)
      (filled : ds ≠ []) : (ds ++ rest).dropWhile isMargin = ds ++ rest := by
    cases ds with
    | nil => exact absurd rfl filled
    | cons d ds => simp [(plain_of_digit (hds d (by simp))).1]
  have whole := kept cs.reverse [] (by simpa using digits) (by simpa using filled)
  rw [List.append_nil] at whole
  rw [trim, kept cs margin digits filled, Text.dropEnd, List.reverse_append,
    List.dropWhile_append_of_pos (by simpa using blank), whole, List.reverse_reverse]

theorem unsigned_digits : unsigned cs = (false, cs) := by
  unfold unsigned
  split
  next => exact absurd rfl (plain_of_digit (digits '-' (by simp))).2.1
  next => exact absurd rfl (plain_of_digit (digits '+' (by simp))).2.2.1
  next => rfl

theorem isSome_digitsFrom {afterDigit : Bool} (some : cs = [] → afterDigit = true) (value : Nat) :
    (digitsFrom 10 afterDigit value cs).isSome = true := by
  induction cs generalizing afterDigit value with
  | nil => simp [digitsFrom, some rfl]
  | cons c cs ih =>
    rw [List.forall_mem_cons] at digits
    obtain ⟨n, small, read⟩ := exists_digitValue digits.1
    rw [digitsFrom]
    · simp [read, small, ih digits.2]
    · exact (plain_of_digit digits.1).2.2.2.1

end

theorem digitsFrom_cons (digit : c.isDigit = true) (afterDigit : Bool) (value : Nat) :
    digitsFrom 10 afterDigit value (c :: cs) =
      digitsFrom 10 true (10 * value + (Digits.hexValue? c).getD 0) cs := by
  have small : c.toNat - 48 < 10 := by have := toNat_of_isDigit digit; omega
  rw [digitsFrom, digitValue?_of_isDigit digit, hexValue?_of_isDigit digit]
  · simp [small]
  · exact ne_of_isDigit digit (by decide)

theorem digitsFrom_digits (digits : ∀ c ∈ cs, c.isDigit = true) (value : Nat) :
    digitsFrom 10 true value cs =
      some (cs.foldl (fun n c => 10 * n + (Digits.hexValue? c).getD 0) value) := by
  induction cs generalizing value with
  | nil => rfl
  | cons c cs ih =>
    rw [digitsFrom_cons (digits c (by simp)), ih fun d hd => digits d (by simp [hd])]
    rfl

theorem withoutMark_decimal (cs : List Char) : withoutMark 10 cs = cs := by
  unfold withoutMark
  split
  next => simp [baseMark?, List.lookup_cons]
  next => rfl

/-- ASCII digits denote their decimal value, if they are not too many. -/
theorem int?_digits {s : String} (filled : s ≠ "") (digits : ∀ c ∈ s.toList, c.isDigit = true)
    (few : s.toList.length ≤ digitLimit) : int? s = some (Digits.decimal s.toList : Int) := by
  have known : ∀ c ∈ s.toList, (Text.digitValue? c).isSome = true := fun c hc => by
    rw [textDigitValue?_of_isDigit (digits c hc), Option.isSome_some]
  have whole : trim s.toList = s.toList := by
    have bare := trim_digits known (by simpa using filled) (List.forall_mem_nil _)
    rwa [List.append_nil] at bare
  have short : (s.toList.filter fun c => (digitValue? c).isSome).length ≤ digitLimit :=
    Nat.le_trans (List.length_filter_le _ _) few
  have read : digitsFrom 10 false 0 s.toList = some (Digits.decimal s.toList) := by
    cases chars : s.toList with
    | nil => exact absurd (String.toList_eq_nil_iff.mp chars) filled
    | cons c rest =>
      rw [chars] at digits
      rw [digitsFrom_cons (digits c (by simp)),
        digitsFrom_digits fun d hd => digits d (by simp [hd])]
      rfl
  rw [int?, inBase?, whole, unsigned_digits known]
  simp [withoutMark_decimal, read, Nat.not_lt.mpr short]

/-- Digits of any script with blanks behind them are a numeral if they are not too many. -/
theorem isSome_int?_iff {s : String} {margin : List Char} (chars : s.toList = cs ++ margin)
    (filled : cs ≠ []) (digits : ∀ c ∈ cs, (Text.digitValue? c).isSome = true)
    (blank : ∀ c ∈ margin, isMargin c = true) :
    (int? s).isSome = true ↔ cs.length ≤ digitLimit := by
  have counted : cs.filter (fun c => (digitValue? c).isSome) = cs := by
    refine List.filter_eq_self.mpr fun c hc => ?_
    obtain ⟨n, _, read⟩ := exists_digitValue (digits c hc)
    rw [read, Option.isSome_some]
  have read : (digitsFrom 10 false 0 cs).isSome = true :=
    isSome_digitsFrom digits (fun empty => absurd empty filled) 0
  rw [int?, inBase?, chars, trim_digits digits filled blank, unsigned_digits digits]
  dsimp only
  rw [counted, withoutMark_decimal]
  split
  next many => simpa using many
  next few =>
    obtain ⟨n, value⟩ := Option.isSome_iff_exists.mp read
    simpa [value] using few

end ApiBinding.Numeral
