import ApiBinding.Proofs.Method.Request
import ApiBinding.Proofs.Text.Pieces
import ApiBinding.Proofs.Text.Quoted
import Mathlib.Data.List.DropRight
import Mathlib.Data.List.Nodup

/-!
What addresses come to when they are computed: the base followed by the path, in which each
placeholder of an argument is filled with its value and all else stands as it is.
-/

namespace ApiBinding.Address

open PathTemplate (Part Piece parts partsFrom pieces piecesFrom argumentFor? textPiece)
open Text (after? codes ofCode IsKept)

/-- One text after the other, if both are there. -/
def followedBy (first second : Option (List Char)) : Option (List Char) := do
  return (← first) ++ (← second)

section

variable {cs ds : List Char} {a b c : Option (List Char)}

@[simp] theorem followedBy_some : followedBy (some cs) (some ds) = some (cs ++ ds) := rfl

@[simp] theorem nil_followedBy : followedBy (some []) a = a := by
  cases a <;> rfl

@[simp] theorem followedBy_nil : followedBy a (some []) = a := by
  cases a <;> simp [followedBy]

theorem followedBy_assoc : followedBy (followedBy a b) c = followedBy a (followedBy b c) := by
  cases a <;> cases b <;> cases c <;> simp [followedBy]

theorem append_followedBy :
    followedBy (some (cs ++ ds)) a = followedBy (some cs) (followedBy (some ds) a) := by
  rw [← followedBy_assoc, followedBy_some]

end

/-- Whether a character is no brace. -/
def isPlain (c : Char) : Bool := c != '\x7b' && c != '\x7d'

/-- The name between the braces that a text begins with: as many characters as come, but at least
one, none of which is a brace. -/
def placeholder? : List Char → Option (List Char)
  | '\x7b' :: rest =>
    let name := rest.takeWhile isPlain
    if name.isEmpty then none
    else if (rest.drop name.length).head? = some '\x7d' then some name else none
  | _ => none

/-- The text with its placeholders filled from left to right, after passing over the given number of
characters. Placeholders without a value stand as they are. -/
def filledFrom (value : List Char → Option (Option (List Char))) :
    Nat → List Char → Option (List Char)
  | _, [] => some []
  | skip + 1, _ :: rest => filledFrom value skip rest
  | 0, c :: rest =>
    match placeholder? (c :: rest) with
    | none => followedBy (some [c]) (filledFrom value 0 rest)
    | some name =>
      let filling := (value name).getD (some ('\x7b' :: name ++ ['\x7d']))
      followedBy filling (filledFrom value (name.length + 1) rest)

section

variable {value : List Char → Option (Option (List Char))} {name cs : List Char}

theorem filledFrom_skip (front cs : List Char) :
    filledFrom value front.length (front ++ cs) = filledFrom value 0 cs := by
  induction front with
  | nil => rfl
  | cons c front ih => exact ih

theorem filledFrom_cons {c : Char} (h : placeholder? (c :: cs) = none) :
    filledFrom value 0 (c :: cs) = followedBy (some [c]) (filledFrom value 0 cs) := by
  rw [filledFrom, h]

theorem placeholder?_of_ne {c : Char} (other : c ≠ '\x7b') : placeholder? (c :: cs) = none := by
  unfold placeholder?
  split
  next same => exact absurd (List.cons.inj same).1 other
  next => rfl

/-- Where no brace stands, all stands for itself. -/
theorem filledFrom_plain (plain : ∀ c ∈ name, isPlain c = true) (cs : List Char) :
    filledFrom value 0 (name ++ cs) = followedBy (some name) (filledFrom value 0 cs) := by
  induction name with
  | nil => simp
  | cons c name ih =>
    rw [List.forall_mem_cons, isPlain, Bool.and_eq_true, bne_iff_ne] at plain
    rw [List.cons_append, filledFrom_cons (placeholder?_of_ne plain.1.1), ih plain.2,
      ← append_followedBy, List.singleton_append]

theorem placeholder?_open (plain : ∀ c ∈ name, isPlain c = true) (cs : List Char)
    (ends : cs.head?.all (fun c => !isPlain c) = true) :
    placeholder? ('\x7b' :: (name ++ cs)) =
      if name.isEmpty then none else if cs.head? = some '\x7d' then some name else none := by
  have taken : (name ++ cs).takeWhile isPlain = name := by
    rw [List.takeWhile_append_of_pos plain]
    cases cs with
    | nil => simp
    | cons c cs =>
      have brace : isPlain c = false := by simpa using ends
      rw [List.takeWhile_cons_of_neg (by simp [brace]), List.append_nil]
  simp only [placeholder?, taken, List.drop_left]

/-- A brace that opens no placeholder stands for itself, and so does what follows it up to the next
brace. -/
theorem filledFrom_unclosed (plain : ∀ c ∈ name, isPlain c = true)
    (ends : cs.head?.all (fun c => !isPlain c) = true)
    (unclosed : name = [] ∨ cs.head? ≠ some '\x7d') :
    filledFrom value 0 ('\x7b' :: (name ++ cs)) =
      followedBy (some ('\x7b' :: name)) (filledFrom value 0 cs) := by
  have none : placeholder? ('\x7b' :: (name ++ cs)) = none := by
    rw [placeholder?_open plain cs ends]
    rcases unclosed with rfl | other
    · rfl
    · simp [other]
  rw [filledFrom_cons none, filledFrom_plain plain, ← append_followedBy, List.singleton_append]

theorem filledFrom_closed (plain : ∀ c ∈ name, isPlain c = true) (nonempty : name ≠ [])
    (cs : List Char) :
    filledFrom value 0 ('\x7b' :: (name ++ '\x7d' :: cs)) =
      followedBy ((value name).getD (some ('\x7b' :: name ++ ['\x7d'])))
        (filledFrom value 0 cs) := by
  have found := placeholder?_open plain ('\x7d' :: cs) (by simp [isPlain])
  rw [List.isEmpty_eq_false_iff.mpr nonempty, if_neg Bool.false_ne_true, if_pos (by simp)] at found
  have skipped : filledFrom value (name.length + 1) (name ++ '\x7d' :: cs) =
      filledFrom value 0 cs := by
    have text : name ++ '\x7d' :: cs = (name ++ ['\x7d']) ++ cs := by simp
    have length : name.length + 1 = (name ++ ['\x7d']).length := by simp
    rw [text, length, filledFrom_skip]
  rw [filledFrom, found]
  dsimp only
  rw [skipped]

/-- The text of a part, with the placeholder filled if it is one. -/
def fillPart (value : List Char → Option (Option (List Char))) : Part → Option (List Char)
  | .text cs => some cs
  | .placeholder name => (value name).getD (some ('\x7b' :: name ++ ['\x7d']))

def fillParts (value : List Char → Option (Option (List Char))) (parts : List Part) :
    Option (List Char) :=
  parts.foldr (fun part rest => followedBy (fillPart value part) rest) (some [])

theorem fillParts_cons (part : Part) (rest : List Part) :
    fillParts value (part :: rest) = followedBy (fillPart value part) (fillParts value rest) := rfl

/-- What has been read since the last open brace, with that brace. -/
def pending : Option (List Char) → List Char
  | none => []
  | some name => '\x7b' :: name.reverse

/-- What stands since the last open brace is a placeholder if the brace that closes it comes next,
and stands for itself if another brace does, or none. -/
theorem fillParts_partsFrom (text : List Char) (opened : Option (List Char)) (cs : List Char)
    (plain : ∀ name ∈ opened, ∀ c ∈ name, isPlain c = true) :
    fillParts value (partsFrom text opened cs) =
      followedBy (some text.reverse) (filledFrom value 0 (pending opened ++ cs)) := by
  fun_induction partsFrom text opened cs with
  | case1 text => simp [pending, fillParts, fillPart, filledFrom]
  | case2 text name =>
    have plain : ∀ c ∈ name.reverse, isPlain c = true := by simpa using plain
    have unclosed : filledFrom value 0 (pending (some name) ++ []) =
        followedBy (some (pending (some name))) (filledFrom value 0 []) :=
      filledFrom_unclosed plain rfl (.inr (by decide))
    rw [unclosed]
    simp [pending, fillParts, fillPart, filledFrom]
  | case3 text rest ih => exact ih (by simp)
  | case4 text c rest other ih =>
    rw [ih (by simp), List.reverse_cons, append_followedBy]
    exact congrArg _ (filledFrom_cons (placeholder?_of_ne other)).symm
  | case5 text rest name ih =>
    have plain : ∀ c ∈ name.reverse, isPlain c = true := by simpa using plain
    have unclosed : filledFrom value 0 (pending (some name) ++ '\x7b' :: rest) =
        followedBy (some (pending (some name))) (filledFrom value 0 ('\x7b' :: rest)) :=
      filledFrom_unclosed plain (by simp [isPlain]) (.inr (by simp))
    have before : (name ++ '\x7b' :: text).reverse = text.reverse ++ pending (some name) := by
      simp [pending]
    rw [ih (by simp), before, append_followedBy, unclosed]
    rfl
  | case6 text rest name empty _ ih =>
    obtain rfl : name = [] := List.isEmpty_iff.mp empty
    have unclosed : filledFrom value 0 (pending (some []) ++ '\x7d' :: rest) =
        followedBy (some ['\x7b']) (filledFrom value 0 ('\x7d' :: rest)) :=
      filledFrom_unclosed (by simp) (by simp [isPlain]) (.inl rfl)
    have closing : filledFrom value 0 ('\x7d' :: rest) =
        followedBy (some ['\x7d']) (filledFrom value 0 rest) :=
      filledFrom_cons (placeholder?_of_ne (by decide))
    rw [ih (by simp), unclosed, closing, List.reverse_cons, List.reverse_cons, List.append_assoc,
      append_followedBy, append_followedBy]
    rfl
  | case7 text rest name nonempty _ ih =>
    have plain : ∀ c ∈ name.reverse, isPlain c = true := by simpa using plain
    have closed : filledFrom value 0 (pending (some name) ++ '\x7d' :: rest) =
        followedBy (fillPart value (.placeholder name.reverse)) (filledFrom value 0 rest) :=
      filledFrom_closed plain (by simpa using nonempty) rest
    rw [fillParts_cons, fillParts_cons, ih (by simp), List.reverse_nil, nil_followedBy, closed]
    rfl
  | case8 text c rest name open_ close ih =>
    have further : pending (some (c :: name)) ++ rest = pending (some name) ++ c :: rest := by
      simp [pending]
    rw [ih (by simpa [isPlain, open_, close] using plain), further]

/-- What pieces come to, with the values of arguments. -/
def fillPieces (encoded : Argument → Option (List Char)) (pieces : List Piece) :
    Option (List Char) :=
  pieces.foldr (fun
    | .text cs, rest => followedBy (some cs) rest
    | .value argument, rest => followedBy (encoded argument) rest) (some [])

theorem fillPieces_textPiece (encoded : Argument → Option (List Char)) (text : List Char)
    (pieces : List Piece) : fillPieces encoded (textPiece text ++ pieces) =
      followedBy (some text) (fillPieces encoded pieces) := by
  unfold textPiece
  split
  next empty => simp [List.isEmpty_iff.mp empty]
  next => rfl

/-- Text goes on until a placeholder of an argument, and what stands for other placeholders belongs
to it. -/
theorem fillPieces_piecesFrom (encoded : Argument → Option (List Char)) (arguments : List Argument)
    (text : List Char) (parts : List Part) :
    fillPieces encoded (piecesFrom arguments text parts) = followedBy (some text)
      (fillParts (fun name => (argumentFor? arguments name).map encoded) parts) := by
  fun_induction piecesFrom arguments text parts with
  | case1 text =>
    have read := fillPieces_textPiece encoded text []
    simpa [fillParts, fillPieces] using read
  | case2 text cs rest ih => rw [ih, append_followedBy, fillParts_cons]; rfl
  | case3 text name rest argument found ih =>
    have here : fillPieces encoded (.value argument :: piecesFrom arguments [] rest) =
        followedBy (encoded argument) (fillPieces encoded (piecesFrom arguments [] rest)) := rfl
    rw [fillPieces_textPiece, here, ih, nil_followedBy, fillParts_cons, fillPart, found]
    rfl
  | case4 text name rest absent ih =>
    rw [ih, List.append_assoc, append_followedBy, fillParts_cons, fillPart, absent]
    rfl

/-- With different names, an argument is found by its name from either end. -/
theorem argumentFor?_eq {arguments : List Argument}
    (distinct : (arguments.map Argument.sentName).Nodup) (name : List Char) :
    argumentFor? arguments name =
      arguments.find? fun argument => argument.sentName == String.ofList name := by
  unfold argumentFor?
  cases first : arguments.find? fun argument => argument.sentName == String.ofList name with
  | none =>
    rw [List.find?_eq_none] at first ⊢
    simpa using first
  | some argument =>
    cases last : arguments.reverse.find? fun argument =>
        argument.sentName == String.ofList name with
    | none =>
      rw [List.find?_eq_none] at last
      have member := List.mem_reverse.mpr (List.mem_of_find?_eq_some first)
      exact absurd (List.find?_some first) (last argument member)
    | some other =>
      have named := List.find?_some first
      have other_named := List.find?_some last
      rw [beq_iff_eq] at named other_named
      have member := List.mem_reverse.mp (List.mem_of_find?_eq_some last)
      rw [List.inj_on_of_nodup_map distinct member (List.mem_of_find?_eq_some first)
        (other_named.trans named.symm)]

end

/-- A term of the sum that an address is written as. -/
inductive Term where
  | base
  | literal (cs : List Char)
  | encoded (name : String)

/-- Whether a character may stand in the name of a variable. -/
def isVariableChar (c : Char) : Bool := Code.isPathChar c && c != '.'

def readEncoded? (cs : List Char) : Option (Term × List Char) := do
  let rest ← after? "quote(str(".toList cs
  let name := rest.takeWhile isVariableChar
  let rest ← after? "), safe='')".toList (rest.drop name.length)
  if name.isEmpty then none else some (.encoded (String.ofList name), rest)

/-- The term that a text begins with, and what stands behind it. -/
def readTerm? : List Char → Option (Term × List Char)
  | [] => none
  | c :: rest =>
    if Code.isQuote c then
      (Text.literalFrom c 0 rest).map fun (codes, rest) => (.literal (codes.flatMap ofCode), rest)
    else
      match after? "self.base_url.rstrip('/')".toList (c :: rest) with
      | some rest => some (.base, rest)
      | none => readEncoded? (c :: rest)

/-- The terms of a sum, after passing over the given number of characters. -/
def sumFrom : Nat → List Char → Option (List Term)
  | _, [] => none
  | skip + 1, _ :: rest => sumFrom skip rest
  | 0, c :: rest => do
    let (term, behind) ← readTerm? (c :: rest)
    if behind.isEmpty then return [term]
    else
      let more ← after? " + ".toList behind
      return term :: (← sumFrom (rest.length - more.length) rest)

/-- The terms of the sum that a text is. -/
def terms? (expression : String) : Option (List Term) := sumFrom 0 expression.toList

section

variable {cs : List Char} {term : Term}

theorem sumFrom_skip (front cs : List Char) :
    sumFrom front.length (front ++ cs) = sumFrom 0 cs := by
  induction front with
  | nil => rfl
  | cons c front ih => exact ih

/-- Whether a text is read as a term, whatever stands behind it. -/
structure ReadsAs (text : String) (term : Term) : Prop where
  nonempty : text.toList ≠ []
  read : ∀ rest, readTerm? (text.toList ++ rest) = some (term, rest)

theorem readsAs_base : ReadsAs "self.base_url.rstrip('/')" .base where
  nonempty := by decide
  read := fun rest => by
    have first : "self.base_url.rstrip('/')".toList ++ rest =
        's' :: ("elf.base_url.rstrip('/')".toList ++ rest) := by simp
    rw [first, readTerm?, if_neg (by decide), ← first, Text.after?_append]

theorem readsAs_quoted {s : String} (kept : IsKept s.toList) :
    ReadsAs (Text.quoted s) (.literal s.toList) where
  nonempty := by
    obtain ⟨quote, body, text, _⟩ := Text.literalFrom_quoted s []
    simp [text]
  read := fun rest => by
    obtain ⟨quote, body, text, isQuote, read⟩ := Text.literalFrom_quoted s rest
    have opens : Code.isQuote quote = true := by rcases isQuote with rfl | rfl <;> rfl
    rw [text, List.cons_append, readTerm?, if_pos opens, read]
    exact congrArg (fun cs => some (Term.literal cs, rest)) kept

theorem readsAs_encoded {name : String} (nonempty : name ≠ "")
    (chars : name.toList.all isVariableChar = true) :
    ReadsAs ("quote(str(" ++ name ++ "), safe='')") (.encoded name) where
  nonempty := by simp
  read := fun rest => by
    have text : ("quote(str(" ++ name ++ "), safe='')").toList ++ rest =
        "quote(str(".toList ++ (name.toList ++ ("), safe='')".toList ++ rest)) := by
      simp only [String.toList_append, List.append_assoc]
    have first : "quote(str(".toList ++ (name.toList ++ ("), safe='')".toList ++ rest)) =
        'q' :: ("uote(str(".toList ++ (name.toList ++ ("), safe='')".toList ++ rest))) := by simp
    have other (cs : List Char) : after? "self.base_url.rstrip('/')".toList ('q' :: cs) = none := by
      simp [after?]
    have taken : (name.toList ++ ("), safe='')".toList ++ rest)).takeWhile isVariableChar =
        name.toList := by
      rw [List.takeWhile_append_of_pos (List.all_eq_true.mp chars)]
      simp [isVariableChar, Code.isPathChar]
    rw [text, first, readTerm?, if_neg (by decide), other, ← first]
    simp only [readEncoded?, Text.after?_append, Option.bind_eq_bind, Option.bind_some, taken,
      List.drop_left, String.ofList_toList]
    simp [nonempty]

theorem terms?_joined {texts : List String} {terms : List Term}
    (h : List.Forall₂ ReadsAs texts terms) (present : texts ≠ []) :
    terms? (Text.joined " + " texts) = some terms := by
  induction h with
  | nil => exact absurd rfl present
  | @cons text term texts terms here rest ih =>
    obtain ⟨c, tail, first⟩ := List.exists_cons_of_ne_nil here.nonempty
    have read := here.read
    rw [first] at read
    cases rest with
    | nil =>
      have whole := read []
      rw [List.append_nil] at whole
      rw [terms?, Text.joined, first, sumFrom, whole]
      rfl
    | @cons second term' texts terms next rest =>
      have later := ih (by simp)
      have joined : Text.joined " + " (text :: second :: texts) =
          text ++ " + " ++ Text.joined " + " (second :: texts) := rfl
      generalize Text.joined " + " (second :: texts) = more at later joined
      have whole := read (" + ".toList ++ more.toList)
      have chars : (Text.joined " + " (text :: second :: texts)).toList =
          c :: (tail ++ (" + ".toList ++ more.toList)) := by
        rw [joined, String.toList_append, String.toList_append, first, List.append_assoc]
        rfl
      have skip : (tail ++ (" + ".toList ++ more.toList)).length - more.toList.length =
          (tail ++ " + ".toList).length := by
        simp only [List.length_append]
        omega
      have skipped : sumFrom (tail ++ " + ".toList).length
          (tail ++ (" + ".toList ++ more.toList)) = terms? more := by
        rw [← List.append_assoc, sumFrom_skip]
        rfl
      rw [terms?, chars, sumFrom]
      simp only [List.cons_append] at whole
      simp only [whole, Option.bind_eq_bind, Option.bind_some, Text.after?_append, skip, skipped,
        later]
      simp

end

/-- What is known where an address is computed: the base, and the texts that are the values of
variables. -/
structure Scope where
  base : String
  text : String → String

/-- Whether a character of an address stands for itself. -/
def isUnreserved (c : Char) : Bool := c.isAlphanum || "_.-~".toList.contains c

def percentByte (byte : UInt8) : List Char :=
  let c := Char.ofNat byte.toNat
  if isUnreserved c then [c] else '%' :: (Text.hexDigits 2 byte.toNat).map Char.toUpper

/-- A text as it stands in an address, unless it has no bytes. -/
def percentEncoded (s : String) : Option (List Char) :=
  (Text.bytes? s).map fun bytes => bytes.toList.flatMap percentByte

namespace Scope

variable (scope : Scope)

/-- The base without the slashes at its end. -/
def stripped : List Char := scope.base.toList.rdropWhile (· == '/')

def encoded (name : String) : Option (List Char) := percentEncoded (scope.text name)

def value : Term → Option (List Char)
  | .base => some scope.stripped
  | .literal cs => some cs
  | .encoded name => scope.encoded name

def sum (terms : List Term) : Option (List Char) :=
  terms.foldr (fun term rest => followedBy (scope.value term) rest) (some [])

/-- What a placeholder is filled with: the value of the argument that is sent by its name. -/
def filling (arguments : List Argument) (name : List Char) : Option (Option (List Char)) :=
  (arguments.find? fun argument => argument.sentName == String.ofList name).map
    fun argument => scope.encoded argument.name

end Scope

section

variable {path : String} {arguments : List Argument}

/-- Whether a name can be written as a variable. -/
def IsVariable (name : String) : Prop := name ≠ "" ∧ name.toList.all isVariableChar = true

def PartKept : Part → Prop
  | .text cs => IsKept cs
  | .placeholder name => IsKept name

theorem kept_partsFrom (text : List Char) (opened : Option (List Char)) (cs : List Char)
    (kept : IsKept (text.reverse ++ (pending opened ++ cs))) :
    ∀ part ∈ partsFrom text opened cs, PartKept part := by
  fun_induction partsFrom text opened cs with
  | case1 text => simpa [pending, PartKept] using kept
  | case2 text name => simpa [pending, PartKept] using kept
  | case3 text rest ih => exact ih kept
  | case4 text c rest other ih => exact ih (by simpa [pending] using kept)
  | case5 text rest name ih => exact ih (by simpa [pending] using kept)
  | case6 text rest name empty _ ih =>
    obtain rfl : name = [] := List.isEmpty_iff.mp empty
    exact ih (by simpa [pending] using kept)
  | case7 text rest name nonempty _ ih =>
    obtain ⟨before, behind⟩ := Text.IsKept.split (by decide) kept
    obtain ⟨inside, after⟩ := Text.IsKept.split (by decide) behind
    rw [List.forall_mem_cons, List.forall_mem_cons]
    exact ⟨before, inside, ih after⟩
  | case8 text c rest name open_ close ih => exact ih (by simpa [pending] using kept)

theorem kept_textPiece {text : List Char} (kept : IsKept text) :
    ∀ cs, Piece.text cs ∈ textPiece text → IsKept cs := by
  intro cs member
  unfold textPiece at member
  split at member
  · cases member
  · cases List.mem_singleton.mp member
    exact kept

theorem kept_piecesFrom (text : List Char) (parts : List Part) (kept : IsKept text)
    (all : ∀ part ∈ parts, PartKept part) :
    ∀ cs, .text cs ∈ piecesFrom arguments text parts → IsKept cs := by
  fun_induction piecesFrom arguments text parts with
  | case1 text => exact kept_textPiece kept
  | case2 text cs rest ih =>
    rw [List.forall_mem_cons] at all
    exact ih (kept.append all.1) all.2
  | case3 text name rest argument found ih =>
    rw [List.forall_mem_cons] at all
    intro cs member
    rcases List.mem_append.mp member with member | member
    · exact kept_textPiece kept cs member
    · rcases List.mem_cons.mp member with member | member
      · cases member
      · exact ih rfl all.2 cs member
  | case4 text name rest absent ih =>
    rw [List.forall_mem_cons] at all
    have brace : IsKept ['\x7b'] ∧ IsKept ['\x7d'] := by decide
    have name : IsKept ('\x7b' :: name) := brace.1.append all.1
    exact ih ((kept.append name).append brace.2) all.2

/-- What a piece of a path is read as. -/
def termOf : Piece → Term
  | .text cs => .literal cs
  | .value argument => .encoded argument.name

theorem sum_termOf (scope : Scope) (pieces : List Piece) : scope.sum (pieces.map termOf) =
    fillPieces (fun argument => scope.encoded argument.name) pieces := by
  induction pieces with
  | nil => rfl
  | cons piece pieces ih =>
    cases piece with
    | text cs => exact congrArg (followedBy (some cs)) ih
    | value argument => exact congrArg (followedBy (scope.encoded argument.name)) ih

theorem readsAs_expression {piece : Piece} (kept : ∀ cs, piece = .text cs → IsKept cs)
    (named : ∀ argument, piece = .value argument → IsVariable argument.name) :
    ReadsAs piece.expression (termOf piece) := by
  cases piece with
  | text cs =>
    have read : ReadsAs (Text.quoted (String.ofList cs)) (.literal (String.ofList cs).toList) :=
      readsAs_quoted (by rw [String.toList_ofList]; exact kept cs rfl)
    rwa [String.toList_ofList] at read
  | value argument =>
    obtain ⟨nonempty, chars⟩ := named argument rfl
    exact readsAs_encoded nonempty chars

theorem sum_pieces (distinct : (arguments.map Argument.sentName).Nodup) (scope : Scope) :
    scope.sum ((pieces arguments path).map termOf) =
      filledFrom (scope.filling arguments) 0 path.toList := by
  have value : scope.filling arguments = fun name =>
      (argumentFor? arguments name).map fun argument => scope.encoded argument.name :=
    funext fun name => by rw [argumentFor?_eq distinct, Scope.filling]
  rw [sum_termOf, pieces, fillPieces_piecesFrom, nil_followedBy, value, parts,
    fillParts_partsFrom _ _ _ (by simp), List.reverse_nil, nil_followedBy]
  rfl

theorem isVariable_ofRaw (raw : String) : IsVariable (Identifier.ofRaw .parameter raw) := by
  refine ⟨Identifier.ofRaw_ne_empty .parameter raw, ?_⟩
  have other : Identifier.Role.parameter ≠ .type := by decide
  refine Code.all_mono (Identifier.all_small other raw) fun c small => ?_
  rw [isVariableChar, Code.isPathChar_of_isSmall small, Bool.true_and, bne_iff_ne]
  rintro rfl
  exact absurd small (by decide)

/-- The address of a method is made of the path of its operation, for arguments sent by different
names, each of which is a variable. -/
theorem url_of_toMethod {operation : Operation} {settings : Settings} {method : Method}
    (made : operation.toMethod settings = .ok method) {arguments : List Argument}
    (member : .url path arguments ∈ method.steps) :
    path = operation.path ∧ (arguments.map Argument.sentName).Nodup ∧
      ∀ argument ∈ arguments, IsVariable argument.name := by
  have signature := Operation.signatureOf made
  have named : ∀ argument ∈ method.arguments,
      argument.name = Identifier.ofRaw .parameter argument.sentName := fun argument inside =>
    (((Operation.requestOf made).given argument inside).1.choose_spec).2.name
  have distinct : (method.arguments.map Argument.sentName).Nodup := by
    have same : method.arguments.map Argument.name =
        (method.arguments.map Argument.sentName).map (Identifier.ofRaw .parameter) := by
      rw [List.map_map]
      exact List.map_congr_left named
    exact (same ▸ signature.distinct).of_map
  obtain ⟨names, declared, result, cases, making⟩ := Operation.toMethod_eq_ok made
  have only : ∀ step ∈ method.steps, ∀ path arguments, step = .url path arguments →
      path = operation.path ∧ arguments = Operation.argumentsIn .path method.arguments := by
    refine making.forall_steps ?_ (by simp) (by simp) (by simp) (by simp) (by simp) (by simp)
      (by simp)
    rintro path arguments same
    cases same
    exact ⟨rfl, rfl⟩
  obtain ⟨rfl, rfl⟩ := only _ member path arguments rfl
  refine ⟨rfl, distinct.sublist (List.filter_sublist.map _), fun argument inside => ?_⟩
  rw [named argument (Operation.mem_argumentsIn inside)]
  exact isVariable_ofRaw _

/-- The address of a request is the base without the slashes at its end and behind it the path, in
which the value of an argument stands, encoded, for each placeholder of its name. -/
theorem url_comes_to (regular : Text.IsRegular path)
    (distinct : (arguments.map Argument.sentName).Nodup)
    (named : ∀ argument ∈ arguments, IsVariable argument.name) :
    ∃ expression terms,
      (∀ style, (Step.url path arguments).lines style =
        .ok [bodyIndent ++ "url_ = " ++ expression]) ∧
      terms? expression = some terms ∧
      ∀ scope : Scope, scope.sum terms =
        followedBy (some scope.stripped) (filledFrom (scope.filling arguments) 0 path.toList) := by
  have kept : ∀ cs, .text cs ∈ pieces arguments path → IsKept cs :=
    kept_piecesFrom [] (parts path) rfl (kept_partsFrom [] none path.toList regular)
  have read : List.Forall₂ ReadsAs ((pieces arguments path).map Piece.expression)
      ((pieces arguments path).map termOf) := by
    rw [List.forall₂_map_left_iff, List.forall₂_map_right_iff, List.forall₂_same]
    refine fun piece member => readsAs_expression (fun cs text => ?_) fun argument value => ?_
    · exact kept cs (text ▸ member)
    · exact named argument (Code.mem_of_mem_piecesFrom (value ▸ member))
  refine ⟨addressExpression path arguments, .base :: (pieces arguments path).map termOf,
    fun _ => rfl, terms?_joined (.cons readsAs_base read) (by simp), fun scope => ?_⟩
  exact congrArg (followedBy (some scope.stripped)) (sum_pieces distinct scope)

end

/-- Arguments for the placeholders of a path, one of which stands in it twice. -/
def filling : List Argument :=
  ["a", "b"].map fun name =>
    { name := name ++ "_", sentName := name, location := .path, required := true,
      type := .named "str" false false }

theorem url_comes_to_nested :
    Text.IsRegular "/it's/\x7ba\x7d\x7b\x7bb\x7d\x7d\x7bb\x7d\x7bc\x7d\x7d" ∧
      (filling.map Argument.sentName).Nodup ∧ (∀ argument ∈ filling, IsVariable argument.name) ∧
      ∃ expression terms,
        (∀ style, (Step.url "/it's/\x7ba\x7d\x7b\x7bb\x7d\x7d\x7bb\x7d\x7bc\x7d\x7d" filling).lines
          style = .ok [bodyIndent ++ "url_ = " ++ expression]) ∧
        terms? expression = some terms ∧
        Scope.sum ⟨"http://host//", fun name => if name = "a_" then "x y/" else "é"⟩ terms =
          some "http://host/it's/x%20y%2F\x7b%C3%A9\x7d%C3%A9\x7bc\x7d\x7d".toList := by
  have regular : Text.IsRegular "/it's/\x7ba\x7d\x7b\x7bb\x7d\x7d\x7bb\x7d\x7bc\x7d\x7d" := by
    decide +kernel
  have distinct : (filling.map Argument.sentName).Nodup := by decide
  have named : ∀ argument ∈ filling, IsVariable argument.name := by
    simp [filling, IsVariable, isVariableChar, Code.isPathChar]
  obtain ⟨expression, terms, lines, read, computed⟩ := url_comes_to regular distinct named
  refine ⟨regular, distinct, named, expression, terms, lines, read, ?_⟩
  rw [computed]
  decide +kernel

end ApiBinding.Address
