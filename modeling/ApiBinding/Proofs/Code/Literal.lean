import ApiBinding.Proofs.Code.Reading
import ApiBinding.Proofs.Number.Numeral
import ApiBinding.Text.Lines

/-!
Literals in generated code: whatever a text holds, nothing of it is read as code where it stands
between quotes, and numbers and dates name no support class.
-/

namespace ApiBinding.Code

open Text (hexDigit hexDigits escapeCode escapeChar escapeUnit)

theorem read_path {cs : List Char} (h : cs.all isPathChar = true) (path : List Char) :
    read (.plain path) cs = ([], .plain (cs.reverse ++ path)) := by
  induction cs generalizing path with
  | nil => rfl
  | cons c cs ih =>
    rw [List.all_cons, Bool.and_eq_true] at h
    simp [read, step, h.1, ih h.2]

variable {allowed : String → Prop}

/-- A path is read as the name that it starts with. -/
theorem says_of_path {s : String} (h : s.toList.all isPathChar = true)
    (named : allowed (rootOf s.toList)) : SaysOnly allowed s := by
  constructor <;> rw [read_path h]
  · simp
  · rw [List.append_nil, RestsIn, found, List.reverse_reverse]
    split
    next => simp
    next => simpa using named

/-- Whether a character is none with which a support class may begin, a literal, a comment or a line
that follows. -/
def isQuiet (c : Char) : Bool := !c.isUpper && !isQuote c && c != '#' && !Text.isLineEnd c

theorem quiet_found {path : List Char} (h : path.all isQuiet = true) :
    ∀ name ∈ found path, name.toList.all isQuiet = true := by
  intro name member
  unfold found at member
  split at member
  next => cases member
  next =>
    obtain rfl := List.mem_singleton.mp member
    rw [rootOf, String.toList_ofList, List.all_eq_true]
    intro c taken
    have inside := List.mem_reverse.mp ((List.takeWhile_sublist _).subset taken)
    exact List.all_eq_true.mp h c inside

theorem read_quiet {cs : List Char} (h : cs.all isQuiet = true) (path : List Char)
    (h' : path.all isQuiet = true) :
    (∀ name ∈ (read (.plain path) cs).1, name.toList.all isQuiet = true) ∧
      ∃ path', (read (.plain path) cs).2 = .plain path' ∧ path'.all isQuiet = true := by
  induction cs generalizing path with
  | nil => exact ⟨nofun, path, rfl, h'⟩
  | cons c cs ih =>
    rw [List.all_cons, Bool.and_eq_true] at h
    have quiet := h.1
    simp only [isQuiet, Bool.and_eq_true, Bool.not_eq_true', bne_iff_ne] at quiet
    rw [read_cons, step]
    split
    next =>
      refine ih h.2 (c :: path) ?_
      rw [List.all_cons, h.1, h', Bool.true_and]
    next =>
      have after : Mode.after c = .plain [] := by simp [Mode.after, quiet]
      obtain ⟨names, last⟩ := ih h.2 [] rfl
      rw [after]
      refine ⟨fun name member => ?_, last⟩
      exact (List.mem_append.mp member).elim (quiet_found h' name) (names name)

theorem allows_of_quiet {name : String} (h : name.toList.all isQuiet = true) : Allows [] name := by
  intro member
  have known : ∀ name ∈ SupportClass.all.map SupportClass.name,
      name.toList.all isQuiet = false := by decide
  rw [known name member] at h
  cases h

theorem says_of_quiet {s : String} (h : s.toList.all isQuiet = true) : Says [] s := by
  obtain ⟨names, path, last, quiet⟩ := read_quiet h [] rfl
  refine ⟨fun name member => allows_of_quiet (names name member), ?_⟩
  rw [last]
  exact fun name member => allows_of_quiet (quiet_found quiet name member)

/-- Whether a literal in single quotes goes on. -/
def Inside (quote : Char) (mode : Mode) : Prop := mode = .opened quote ∨ mode = .short quote false

/-- Whether characters stand in a literal as a whole. -/
def Stands (quote : Char) (cs : List Char) : Prop :=
  ∀ mode, Inside quote mode → read mode cs = ([], .short quote false)

theorem stands_char {quote c : Char} (other : c ≠ quote) (plain : c ≠ '\\') :
    Stands quote [c] := by
  rintro _ (rfl | rfl) <;> simp [read, step, other, plain]

theorem stands_escape {quote : Char} (quotes : isQuote quote = true) (c : Char) :
    Stands quote ['\\', c] := by
  have other : '\\' ≠ quote := by
    rintro rfl
    cases quotes
  rintro _ (rfl | rfl) <;> simp [read, step, other]

theorem Stands.append {quote : Char} {first second : List Char} (h : Stands quote first)
    (h' : read (.short quote false) second = ([], .short quote false)) :
    Stands quote (first ++ second) := by
  intro mode inside
  rw [read_append, h mode inside, h']
  rfl

theorem isAlphanum_hexDigit {n : Nat} (h : n < 16) : (hexDigit n).isAlphanum = true := by
  have all : ∀ n < 16, (hexDigit n).isAlphanum = true := by decide
  exact all n h

theorem read_hexDigits {quote : Char} (quotes : isQuote quote = true) (width n : Nat) :
    read (.short quote false) (hexDigits width n) = ([], .short quote false) := by
  induction width generalizing n with
  | zero => rfl
  | succ width ih =>
    have digit := isAlphanum_hexDigit (Nat.mod_lt n (by decide : 16 > 0))
    have stands : Stands quote [hexDigit (n % 16)] := by
      refine stands_char ?_ ?_
      · intro same
        rw [same] at digit
        rw [isQuote, Bool.or_eq_true, beq_iff_eq, beq_iff_eq] at quotes
        rcases quotes with rfl | rfl <;> cases digit
      · intro same
        rw [same] at digit
        cases digit
    rw [hexDigits, read_append, ih, stands _ (.inr rfl)]
    rfl

theorem stands_escapeCode {quote : Char} (quotes : isQuote quote = true) (n : Nat) :
    Stands quote (escapeCode n) := by
  have escaped (c : Char) (width : Nat) : Stands quote ('\\' :: c :: hexDigits width n) :=
    (stands_escape quotes c).append (read_hexDigits quotes width n)
  unfold escapeCode
  split
  next => exact escaped 'x' 2
  next =>
    split
    next => exact escaped 'u' 4
    next => exact escaped 'U' 8

theorem stands_escapeChar {quote : Char} (quotes : isQuote quote = true) (c : Char) :
    Stands quote (escapeChar quote c) := by
  unfold escapeChar
  split
  next => exact stands_escape quotes c
  next other =>
    obtain ⟨other, plain⟩ := not_or.mp other
    repeat' split
    · exact stands_escape quotes 't'
    · exact stands_escape quotes 'n'
    · exact stands_escape quotes 'r'
    · exact stands_char other plain
    · exact stands_escapeCode quotes c.toNat

theorem stands_escapeUnit {quote : Char} (quotes : isQuote quote = true) (code : Nat) :
    Stands quote (escapeUnit quote code) := by
  unfold escapeUnit
  split
  next => exact stands_escapeCode quotes code
  next => exact stands_escapeChar quotes _

theorem read_units {quote : Char} {units : List (List Char)}
    (stands : ∀ unit ∈ units, Stands quote unit) {mode : Mode} (inside : Inside quote mode) :
    (read mode units.flatten).1 = [] ∧ Inside quote (read mode units.flatten).2 := by
  induction units generalizing mode with
  | nil => exact ⟨rfl, inside⟩
  | cons unit units ih =>
    have here := stands unit (List.mem_cons_self ..) mode inside
    have rest := ih (fun other member => stands other (List.mem_cons_of_mem unit member))
      (.inr rfl : Inside quote (.short quote false))
    rw [List.flatten_cons, read_append, here]
    exact rest

/-- A quote ends a literal that it began. -/
theorem Inside.closes {quote : Char} (quotes : isQuote quote = true) {mode : Mode}
    (inside : Inside quote mode) :
    (read mode [quote]).1 = [] ∧ RestsIn allowed (read mode [quote]).2 := by
  rcases inside with rfl | rfl
  · simp [read, step, RestsIn, quotes]
  · simp [read, step, RestsIn, found]

/-- A literal in single quotes is read as nothing, whatever stands in it. -/
theorem read_literal {quote : Char} (quotes : isQuote quote = true) {units : List (List Char)}
    (stands : ∀ unit ∈ units, Stands quote unit) :
    (read (.opened quote) (units.flatten ++ [quote])).1 = [] ∧
      RestsIn allowed (read (.opened quote) (units.flatten ++ [quote])).2 := by
  obtain ⟨names, inside⟩ := read_units stands (.inl rfl)
  obtain ⟨last, rests⟩ := inside.closes quotes
  rw [read_append, names, last]
  exact ⟨rfl, rests⟩

theorem isQuote_quoteFor (cs : List Char) : isQuote (Text.quoteFor cs) = true := by
  unfold Text.quoteFor
  split <;> rfl

theorem step_quote {quote : Char} (quotes : isQuote quote = true) (path : List Char) :
    step (.plain path) quote = (found path, .opened quote) := by
  have noPath : isPathChar quote = false := by
    rw [isQuote, Bool.or_eq_true, beq_iff_eq, beq_iff_eq] at quotes
    rcases quotes with rfl | rfl <;> rfl
  rw [step, noPath, Mode.after, quotes]
  rfl

/-- A literal names nothing, whatever it holds, but for what may stand right in front of it. -/
theorem says_of_literal {s : String} {lead : List Char} {quote : Char} {units : List (List Char)}
    (text : s.toList = lead ++ quote :: (units.flatten ++ [quote]))
    (plain : lead.all isPathChar = true) (marks : ∀ name ∈ found lead.reverse, allowed name)
    (quotes : isQuote quote = true) (stands : ∀ unit ∈ units, Stands quote unit) :
    SaysOnly allowed s := by
  obtain ⟨names, rests⟩ := read_literal quotes stands
  constructor <;> rw [text, read_append, read_path plain, read_cons, step_quote quotes]
  · dsimp only
    rw [names, List.append_nil, List.append_nil, List.nil_append]
    exact marks
  · exact rests

theorem says_quoted_after {lead : String} (plain : lead.toList.all isPathChar = true)
    (marks : ∀ name ∈ found lead.toList.reverse, allowed name) (s : String) :
    SaysOnly allowed (lead ++ Text.quoted s) := by
  have quotes := isQuote_quoteFor s.toList
  have text : (lead ++ Text.quoted s).toList = lead.toList ++ Text.quoteFor s.toList ::
      (((Text.codes s.toList).map (escapeUnit (Text.quoteFor s.toList))).flatten
        ++ [Text.quoteFor s.toList]) := by
    rw [String.toList_append, Text.quoted, String.toList_ofList, Text.quotedChars,
      List.flatMap_def]
    rfl
  refine says_of_literal text plain marks quotes fun unit member => ?_
  obtain ⟨code, _, rfl⟩ := List.mem_map.mp member
  exact stands_escapeUnit quotes code

theorem says_quoted (s : String) : SaysOnly allowed (Text.quoted s) := by
  have h : SaysOnly allowed ("" ++ Text.quoted s) := says_quoted_after rfl nofun s
  rwa [String.empty_append] at h

example : names ["raise ApiException('ApiResponse', status_)"] =
    ["raise", "ApiException", "status_"] := by decide

theorem says_quotedBytes (bytes : List UInt8) : Says [] (Text.quotedBytes bytes) := by
  have quotes := isQuote_quoteFor (bytes.map fun byte => Char.ofNat byte.toNat)
  generalize same : Text.quoteFor (bytes.map fun byte => Char.ofNat byte.toNat) = quote at quotes
  have text : (Text.quotedBytes bytes).toList =
      ['b'] ++ quote :: ((bytes.map (Text.escapeByte quote)).flatten ++ [quote]) := by
    rw [Text.quotedBytes, String.toList_ofList, same, List.flatMap_def]
    rfl
  refine says_of_literal text rfl (by decide) quotes fun unit member => ?_
  obtain ⟨byte, _, rfl⟩ := List.mem_map.mp member
  unfold Text.escapeByte
  split
  next => exact stands_escapeChar quotes _
  next => exact stands_escapeCode quotes _

def Quiet (s : String) : Prop := s.toList.all isQuiet = true

instance (s : String) : Decidable (Quiet s) := inferInstanceAs (Decidable (_ = _))

theorem quiet_append {s t : String} : Quiet (s ++ t) ↔ Quiet s ∧ Quiet t := by
  rw [Quiet, String.toList_append, List.all_append, Bool.and_eq_true, Quiet, Quiet]

theorem isQuiet_of_isDigit {c : Char} (h : c.isDigit = true) : isQuiet c = true := by
  have ascii : c.toNat < 128 := by
    have := Numeral.toNat_of_isDigit h
    omega
  revert h
  exact Text.forall_ascii (motive := fun c => c.isDigit = true → isQuiet c = true)
    (by decide +kernel) ascii

theorem quiet_nat (n : Nat) : Quiet (toString n) :=
  List.all_eq_true.mpr fun _ member => isQuiet_of_isDigit (Numeral.isDigit_of_mem_toString member)

theorem quiet_int (i : Int) : Quiet (toString i) := by
  cases i with
  | ofNat n => exact quiet_nat n
  | negSucc n => exact quiet_append.mpr ⟨by decide, quiet_nat (n + 1)⟩

theorem quiet_of_subset {s : String} {cs : List Char} (h : Quiet s) (subset : cs ⊆ s.toList) :
    Quiet (String.ofList cs) := by
  rw [Quiet, String.toList_ofList, List.all_eq_true]
  exact fun c member => List.all_eq_true.mp h c (subset member)

theorem quiet_zeros (n : Nat) : Quiet (String.ofList (List.replicate n '0')) := by
  refine quiet_of_subset (by decide : Quiet "0") fun c member => ?_
  rw [List.eq_of_mem_replicate member]
  simp

theorem quiet_positional {digits : String} (h : Quiet digits) (point : Int) :
    Quiet (Binary64.positional digits point) := by
  have whole := quiet_of_subset h (List.take_subset point.toNat digits.toList)
  have fraction := quiet_of_subset h (List.drop_subset point.toNat digits.toList)
  have mark : Quiet "." ∧ Quiet "0." ∧ Quiet ".0" := by decide
  unfold Binary64.positional
  dsimp only
  repeat' split
  · simp only [quiet_append, quiet_zeros, h, mark, and_true]
  · simp only [quiet_append, quiet_zeros, h, mark, and_true]
  · simp only [quiet_append, whole, fraction, mark, and_true]

theorem quiet_scientific {digits : String} (h : Quiet digits) (exponent : Int) :
    Quiet (Binary64.scientific digits exponent) := by
  have lead := quiet_of_subset h (List.take_subset 1 digits.toList)
  have fraction := quiet_of_subset h (List.drop_subset 1 digits.toList)
  have mark : Quiet "" ∧ Quiet "." ∧ Quiet "e-" ∧ Quiet "e+" ∧ Quiet "0" := by decide
  unfold Binary64.scientific
  dsimp only
  rw [quiet_append, quiet_append, quiet_append]
  refine ⟨⟨⟨lead, ?_⟩, ?_⟩, ?_⟩
  · split <;> simp only [quiet_append, fraction, mark, and_true]
  · split <;> simp only [mark]
  · split <;> simp only [quiet_append, quiet_nat, mark, and_true]

theorem quiet_binary (x : Binary64) : Quiet x.text := by
  cases x with
  | finite negative significand exponent =>
    have digits := quiet_nat (Binary64.shortest significand exponent).digits
    refine quiet_append.mpr ⟨by cases negative <;> decide, ?_⟩
    unfold Binary64.magnitudeText
    dsimp only
    repeat' split
    · decide
    · exact quiet_positional digits _
    · exact quiet_scientific digits _
  | infinite negative => cases negative <;> decide
  | nan => decide

theorem quiet_offsetLiteral (minutes : Int) : Quiet (Moment.offsetLiteral minutes) := by
  unfold Moment.offsetLiteral
  dsimp only
  split
  · decide
  · have days : Quiet (if minutes < 0 then "days=-1, " else "") := by split <;> decide
    simp only [quiet_append, quiet_int, days, and_true]
    decide

theorem quiet_moment (m : Moment) : Quiet m.literal := by
  have comma : Quiet ", " := by decide
  unfold Moment.literal
  dsimp only
  split
  next =>
    simp only [quiet_append, quiet_nat, comma, and_true]
    decide
  next clock _ =>
    have part (p : Prop) [Decidable p] (n : Nat) :
        Quiet (if p then "" else ", " ++ toString n) := by
      split
      · decide
      · simp only [quiet_append, quiet_nat, comma, and_true]
    cases clock.offset with
    | none =>
      simp only [quiet_append, quiet_nat, comma, part, and_true]
      decide
    | some minutes =>
      simp only [quiet_append, quiet_nat, comma, part, quiet_offsetLiteral, and_true]
      decide

theorem says_scalar (s : Scalar) : Says [] s.literal := by
  cases s with
  | null => exact by decide
  | bool b => cases b <;> exact by decide
  | int i => exact says_of_quiet (quiet_int i)
  | float x => exact says_of_quiet (quiet_binary x)
  | nan name => exact says_of_quiet (quiet_binary .nan)
  | text s => exact says_quoted s
  | bytes bytes => exact says_quotedBytes bytes
  | moment m => exact says_of_quiet (quiet_moment m)

theorem says_bracketed (collection : Value) {inside : String} (h : Says [] inside) :
    Says [] (collection.bracketed inside) := by
  have enclosed {lead last : String} (opens : Closes [] lead) (closes : Joins [] last) :
      Says [] (lead ++ inside ++ last) := ((opens.append h).join closes).toSays
  unfold Value.bracketed Value.brackets
  split
  · exact enclosed (by decide) (by decide)
  · exact enclosed (by decide) (by decide)
  · exact enclosed (by decide) (by decide)

mutual

theorem says_literalIn (around : List (Nat × Value)) : (v : Value) → Says [] (v.literalIn around)
  | .scalar s => says_scalar s
  | .list items => says_bracketed (.list items) 
    (says_joined (by decide) (says_itemLiterals around items))
  | .map entries => says_bracketed (.map entries) 
    (says_joined (by decide) (says_entryLiterals around entries))
  | .set [] => (by decide : Says [] "set()")
  | .set (s :: members) => by
    refine says_bracketed _ (says_joined (by decide) fun t member => ?_)
    obtain ⟨scalar, _, rfl⟩ := List.mem_map.mp member
    exact says_scalar scalar
  | .pair first second => by
    have comma : Joins [] ", " := by decide
    exact says_bracketed _
      (((says_literalIn around first).join comma).append (says_literalIn around second))
  | .knot name body => by
    rw [Value.literalIn]
    split
    · exact says_bracketed body (by decide)
    · exact says_literalIn ((name, body) :: around) body
  | .again name => says_bracketed _ (by decide)

theorem says_itemLiterals (around : List (Nat × Value)) :
    (items : List Value) → ∀ s ∈ Value.itemLiterals around items, Says [] s
  | [] => nofun
  | v :: rest => fun s member => by
    rcases List.mem_cons.mp member with rfl | member
    · exact says_literalIn around v
    · exact says_itemLiterals around rest s member

theorem says_entryLiterals (around : List (Nat × Value)) :
    (entries : List (Scalar × Value)) → ∀ s ∈ Value.entryLiterals around entries, Says [] s
  | [] => nofun
  | (k, v) :: rest => fun s member => by
    rcases List.mem_cons.mp member with rfl | member
    · have colon : Joins [] ": " := by decide
      exact ((says_scalar k).join colon).append (says_literalIn around v)
    · exact says_entryLiterals around rest s member

end

/-- The literal of a value names no support class, whatever texts the value holds. -/
theorem says_literal (v : Value) : Says [] v.literal := says_literalIn [] v

end ApiBinding.Code
