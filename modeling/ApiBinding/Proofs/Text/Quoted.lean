import ApiBinding.Number.Digits
import ApiBinding.Proofs.Text.Upper
import ApiBinding.Text.Quoted
import Mathlib.Algebra.Group.Nat.Defs

/-!
Quoted literals read back. An escape stands for one code whatever comes after it, so texts with one
literal have the same codes, and a text in which no mark is needless is known by its codes. The
quote in front of a literal finds the one that closes it, whatever comes after that.
-/

namespace ApiBinding.Text

/-- Whether a text is what is kept of its codes: a mark stands only where one is needed. -/
def IsRegular (s : String) : Prop := (codes s.toList).flatMap ofCode = s.toList

instance (s : String) : Decidable (IsRegular s) := inferInstanceAs (Decidable (_ = _))

theorem IsRegular.eq_of_codes {s t : String} (hs : IsRegular s) (ht : IsRegular t)
    (same : codes s.toList = codes t.toList) : s = t := by
  rw [← String.toList_inj, ← hs, same]
  exact ht

theorem codeOf_cases (unit : List Char) :
    isHalf (codeOf unit) = true ∨ ∃ c : Char, codeOf unit = c.toNat := by
  match unit with
  | [] => exact .inr ⟨'\x00', rfl⟩
  | [c] =>
    rw [codeOf]
    split
    next standIn => exact .inl standIn
    next => exact .inr ⟨c, rfl⟩
  | _ :: c :: _ => exact .inr ⟨c, rfl⟩

/-- The number that so many hexadecimal digits denote, and what stands after them. -/
def readHex (width : Nat) (cs : List Char) : Nat × List Char :=
  (Digits.inBase 16 (cs.take width), cs.drop width)

/-- The code that a literal goes on with, and what stands after it. -/
def readUnit? : List Char → Option (Nat × List Char)
  | [] => none
  | '\\' :: c :: rest =>
    if c = 'x' then some (readHex 2 rest)
    else if c = 'u' then some (readHex 4 rest)
    else if c = 'U' then some (readHex 8 rest)
    else if c = 't' then some ('\t'.toNat, rest)
    else if c = 'n' then some ('\n'.toNat, rest)
    else if c = 'r' then some ('\r'.toNat, rest)
    else some (c.toNat, rest)
  | c :: rest => some (c.toNat, rest)

theorem length_hexDigits (width n : Nat) : (hexDigits width n).length = width := by
  induction width generalizing n with
  | zero => rfl
  | succ width ih => simp [hexDigits, ih]

theorem hexValue?_hexDigit : ∀ n < 16, Digits.hexValue? (hexDigit n) = some n := by decide

theorem inBase_hexDigits (width n : Nat) :
    Digits.inBase 16 (hexDigits width n) = n % 16 ^ width := by
  induction width generalizing n with
  | zero => simp [hexDigits, Digits.inBase, Nat.mod_one]
  | succ width ih =>
    have last := hexValue?_hexDigit (n % 16) (Nat.mod_lt _ (by decide))
    unfold Digits.inBase at ih ⊢
    rw [hexDigits, List.foldl_append, ih, Nat.pow_succ, Nat.mul_comm (16 ^ width), Nat.mod_mul]
    simp only [List.foldl_cons, List.foldl_nil, last, Option.getD_some]
    omega

theorem readHex_append {width n : Nat} (small : n < 16 ^ width) (rest : List Char) :
    readHex width (hexDigits width n ++ rest) = (n, rest) := by
  rw [readHex, List.take_left' (length_hexDigits width n),
    List.drop_left' (length_hexDigits width n), inBase_hexDigits, Nat.mod_eq_of_lt small]

theorem readUnit?_escapeCode {n : Nat} (small : n < 0x110000) (rest : List Char) :
    readUnit? (escapeCode n ++ rest) = some (n, rest) := by
  unfold escapeCode
  split
  next low => simp [readUnit?, @readHex_append 2 _ low]
  next =>
    split
    next low => simp [readUnit?, @readHex_append 4 _ low]
    next =>
      have low : n < 16 ^ 8 := Nat.lt_trans small (by decide)
      simp [readUnit?, readHex_append low]

theorem readUnit?_plain {c : Char} (other : c ≠ '\\') (rest : List Char) :
    readUnit? (c :: rest) = some (c.toNat, rest) := by
  cases rest <;> simp [readUnit?, other]

theorem toNat_lt (c : Char) : c.toNat < 0x110000 := by
  have valid := c.valid
  rw [← Char.toNat_val]
  unfold UInt32.isValidChar Nat.isValidChar at valid
  omega

theorem readUnit?_escapeChar {quote : Char} (isQuote : quote = '\'' ∨ quote = '"') (c : Char)
    (rest : List Char) : readUnit? (escapeChar quote c ++ rest) = some (c.toNat, rest) := by
  unfold escapeChar
  split
  next marked =>
    -- Neither a quote nor a backslash is a letter that begins an escape.
    have other : c ≠ 'x' ∧ c ≠ 'u' ∧ c ≠ 'U' ∧ c ≠ 't' ∧ c ≠ 'n' ∧ c ≠ 'r' := by
      rcases marked with rfl | rfl
      · rcases isQuote with rfl | rfl <;> decide
      · decide
    simp [readUnit?, other]
  next plain =>
    rw [not_or] at plain
    split
    next tab => simp [readUnit?, tab]
    next =>
      split
      next feed => simp [readUnit?, feed]
      next =>
        split
        next carriage => simp [readUnit?, carriage]
        next =>
          split
          next => exact readUnit?_plain plain.2 rest
          next => exact readUnit?_escapeCode (toNat_lt c) rest

theorem readUnit?_escapeUnit {quote : Char} (isQuote : quote = '\'' ∨ quote = '"')
    (unit rest : List Char) :
    readUnit? (escapeUnit quote (codeOf unit) ++ rest) = some (codeOf unit, rest) := by
  unfold escapeUnit
  split
  next half =>
    refine readUnit?_escapeCode ?_ rest
    simp only [isHalf, isHighHalf, isLowHalf, Bool.or_eq_true, Bool.and_eq_true,
      decide_eq_true_eq] at half
    omega
  next whole =>
    obtain ⟨c, same⟩ := (codeOf_cases unit).resolve_left whole
    rw [same, Char.ofNat_toNat]
    exact readUnit?_escapeChar isQuote c rest

theorem quoteFor_cases (cs : List Char) : quoteFor cs = '\'' ∨ quoteFor cs = '"' := by
  unfold quoteFor
  split
  · exact .inr rfl
  · exact .inl rfl

/-- Codes that are escaped alike are the same. -/
theorem eq_of_escapes {quote : Char} (isQuote : quote = '\'' ∨ quote = '"')
    {first second : List (List Char)}
    (same : (first.map codeOf).flatMap (escapeUnit quote) =
      (second.map codeOf).flatMap (escapeUnit quote)) :
    first.map codeOf = second.map codeOf := by
  have read (unit : List Char) (rest : List Char) := readUnit?_escapeUnit isQuote unit rest
  induction first generalizing second with
  | nil =>
    cases second with
    | nil => rfl
    | cons unit second =>
      have impossible := read unit ((second.map codeOf).flatMap (escapeUnit quote))
      rw [← List.flatMap_cons, ← List.map_cons, ← same] at impossible
      cases impossible
  | cons unit first ih =>
    cases second with
    | nil =>
      have impossible := read unit ((first.map codeOf).flatMap (escapeUnit quote))
      rw [← List.flatMap_cons, ← List.map_cons, same] at impossible
      cases impossible
    | cons unit' second =>
      rw [List.map_cons, List.map_cons, List.flatMap_cons, List.flatMap_cons] at same
      have units := (read unit _).symm.trans ((congrArg readUnit? same).trans (read unit' _))
      obtain ⟨here, rest⟩ := Prod.mk.inj (Option.some.inj units)
      rw [List.map_cons, List.map_cons, here, ih rest]

/-- Texts with one literal have the same codes. -/
theorem codes_of_quoted {s t : String} (same : quoted s = quoted t) :
    codes s.toList = codes t.toList := by
  have chars : quotedChars s.toList = quotedChars t.toList := String.ofList_injective same
  obtain ⟨quote, rest⟩ := List.cons.inj chars
  rw [quote] at rest
  exact eq_of_escapes (quoteFor_cases t.toList) (List.append_cancel_right rest)

theorem quoted_injective {s t : String} (hs : IsRegular s) (ht : IsRegular t)
    (same : quoted s = quoted t) : s = t := hs.eq_of_codes ht (codes_of_quoted same)

/-- The codes in a literal up to the quote that closes it, after passing over the given number of
characters, and what stands behind it. -/
def literalFrom (quote : Char) : Nat → List Char → Option (List Nat × List Char)
  | _, [] => none
  | skip + 1, _ :: rest => literalFrom quote skip rest
  | 0, c :: rest =>
    if c = quote then some ([], rest)
    else
      match readUnit? (c :: rest) with
      | none => none
      | some (code, after) =>
        (literalFrom quote (rest.length - after.length) rest).map (Prod.map (code :: ·) id)

theorem literalFrom_append {quote : Char} (front rest : List Char) :
    literalFrom quote front.length (front ++ rest) = literalFrom quote 0 rest := by
  induction front with
  | nil => rfl
  | cons c front ih => exact ih

/-- What stands for a code does not begin with the quote. -/
theorem escapeUnit_eq_cons {quote : Char} (isQuote : quote = '\'' ∨ quote = '"') (code : Nat) :
    ∃ c rest, escapeUnit quote code = c :: rest ∧ c ≠ quote := by
  have escape : '\\' ≠ quote := by rcases isQuote with rfl | rfl <;> decide
  have byCode (n : Nat) : ∃ c rest, escapeCode n = c :: rest ∧ c ≠ quote := by
    unfold escapeCode
    split
    · exact ⟨_, _, rfl, escape⟩
    · split
      · exact ⟨_, _, rfl, escape⟩
      · exact ⟨_, _, rfl, escape⟩
  unfold escapeUnit
  split
  · exact byCode code
  · unfold escapeChar
    split
    · exact ⟨_, _, rfl, escape⟩
    next plain =>
      rw [not_or] at plain
      split
      · exact ⟨_, _, rfl, escape⟩
      · split
        · exact ⟨_, _, rfl, escape⟩
        · split
          · exact ⟨_, _, rfl, escape⟩
          · split
            · exact ⟨_, _, rfl, plain.1⟩
            · exact byCode _

theorem literalFrom_units {quote : Char} (isQuote : quote = '\'' ∨ quote = '"')
    (units : List (List Char)) (rest : List Char) :
    literalFrom quote 0 ((units.map codeOf).flatMap (escapeUnit quote) ++ quote :: rest) =
      some (units.map codeOf, rest) := by
  induction units with
  | nil => simp [literalFrom]
  | cons unit units ih =>
    obtain ⟨c, tail, text, other⟩ := escapeUnit_eq_cons isQuote (codeOf unit)
    have read := readUnit?_escapeUnit isQuote unit
      ((units.map codeOf).flatMap (escapeUnit quote) ++ quote :: rest)
    rw [text, List.cons_append] at read
    rw [List.map_cons, List.flatMap_cons, List.append_assoc, text, List.cons_append, literalFrom,
      if_neg other, read]
    have skip (after : List Char) : (tail ++ after).length - after.length = tail.length := by simp
    simp only [skip, literalFrom_append, ih]
    rfl

theorem literalFrom_quoted (s : String) (rest : List Char) :
    ∃ quote body, (quoted s).toList = quote :: body ∧ (quote = '\'' ∨ quote = '"') ∧
      literalFrom quote 0 (body ++ rest) = some (codes s.toList, rest) := by
  refine ⟨quoteFor s.toList,
    (codes s.toList).flatMap (escapeUnit (quoteFor s.toList)) ++ [quoteFor s.toList], ?_,
    quoteFor_cases _, ?_⟩
  · rw [quoted, String.toList_ofList]
    rfl
  rw [List.append_assoc]
  exact literalFrom_units (quoteFor_cases _) (units s.toList) rest

section

variable {c d : Char} {cs first second : List Char}

/-- Whether characters are those kept of their codes. -/
def IsKept (cs : List Char) : Prop := (codes cs).flatMap ofCode = cs

instance (cs : List Char) : Decidable (IsKept cs) := inferInstanceAs (Decidable (_ = _))

theorem codes_cons (other : c ≠ mark) (cs : List Char) :
    codes (c :: cs) = codeOf [c] :: codes cs := by
  cases cs with
  | nil => rfl
  | cons d cs => simp [codes, units, other]

theorem isHalf_iff (n : Nat) : isHalf n = true ↔ 0xd800 ≤ n ∧ n < 0xe000 := by
  simp only [isHalf, isHighHalf, isLowHalf, Bool.or_eq_true, Bool.and_eq_true, decide_eq_true_eq]
  omega

theorem ofCode_toNat (c : Char) : ofCode c.toNat = kept c := by
  have whole : isHalf c.toNat = false := by
    have valid := c.valid
    rw [← Bool.not_eq_true, isHalf_iff]
    rw [← Char.toNat_val]
    unfold UInt32.isValidChar Nat.isValidChar at valid
    omega
  rw [ofCode, whole, if_neg Bool.false_ne_true, Char.ofNat_toNat]

theorem ofCode_codeOf (other : c ≠ mark) : ofCode (codeOf [c]) = [c] := by
  rw [codeOf]
  split
  next standIn =>
    have half : isHalf (c.toNat - standInShift) = true := standIn
    have bounds := (isHalf_iff _).mp half
    rw [ofCode, if_pos half, Nat.add_sub_cancel' (by omega), Char.ofNat_toNat]
  next plain =>
    rw [ofCode_toNat, kept, if_neg (by simp [other, plain])]

theorem isKept_cons (other : c ≠ mark) : IsKept (c :: cs) ↔ IsKept cs := by
  rw [IsKept, codes_cons other, List.flatMap_cons, ofCode_codeOf other, List.singleton_append,
    List.cons.injEq, IsKept]
  exact and_iff_right rfl

theorem isKept_mark : IsKept (mark :: d :: cs) ↔ (d = mark ∨ isStandIn d = true) ∧ IsKept cs := by
  have read : codes (mark :: d :: cs) = d.toNat :: codes cs := by simp [codes, units, codeOf]
  rw [IsKept, read, List.flatMap_cons, ofCode_toNat, kept, IsKept]
  split
  next marked => simp [marked]
  next plain =>
    rw [not_or] at plain
    simp [plain]

theorem not_isKept_mark : ¬IsKept [mark] := by decide

theorem IsKept.append (h : IsKept first) (h' : IsKept second) : IsKept (first ++ second) := by
  fun_induction units first with
  | case1 => exact h'
  | case2 c =>
    have other : c ≠ mark := by
      rintro rfl
      exact not_isKept_mark h
    exact (isKept_cons other).mpr h'
  | case3 d rest ih =>
    rw [isKept_mark] at h
    exact isKept_mark.mpr ⟨h.1, ih h.2⟩
  | case4 c d rest other ih =>
    rw [isKept_cons other] at h
    exact (isKept_cons other).mpr (ih h)

theorem IsKept.split (plain : c ≠ mark ∧ isStandIn c = false) (h : IsKept (first ++ c :: second)) :
    IsKept first ∧ IsKept second := by
  fun_induction units first with
  | case1 => exact ⟨rfl, (isKept_cons plain.1).mp h⟩
  | case2 d =>
    by_cases marked : d = mark
    · subst marked
      simp [isKept_mark, plain] at h
    · rw [List.singleton_append, isKept_cons marked, isKept_cons plain.1] at h
      exact ⟨(isKept_cons marked).mpr rfl, h⟩
  | case3 e rest ih =>
    rw [List.cons_append, List.cons_append, isKept_mark] at h
    obtain ⟨rest, behind⟩ := ih h.2
    exact ⟨isKept_mark.mpr ⟨h.1, rest⟩, behind⟩
  | case4 d e rest other ih =>
    rw [List.cons_append, isKept_cons other] at h
    obtain ⟨rest, behind⟩ := ih h
    exact ⟨(isKept_cons other).mpr rest, behind⟩

end

end ApiBinding.Text
