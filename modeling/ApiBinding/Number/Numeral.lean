import ApiBinding.Number.Digits
import ApiBinding.Text.Alphanumeric
import ApiBinding.Text.Blank

/-!
Whole numbers read from text: blanks around them, a sign, digits of any script and single
underscores between digits are allowed.
-/

namespace ApiBinding.Numeral

/-- Numerals with more digits than this are refused. -/
def digitLimit : Nat := 4300

/-- Whether the character may stand around a numeral; of ASCII the separators 28 to 31 may not. -/
def isMargin (c : Char) : Bool :=
  Text.isBlank c && !(28 ≤ c.toNat && c.toNat ≤ 31)

def trim (cs : List Char) : List Char := Text.dropEnd isMargin (cs.dropWhile isMargin)

def unsigned : List Char → Bool × List Char
  | '-' :: rest => (true, rest)
  | '+' :: rest => (false, rest)
  | cs => (false, cs)

/-- The value of a character as a digit: decimal digits of any script and letters. -/
def digitValue? (c : Char) : Option Nat := (Text.digitValue? c).or (Digits.hexValue? c)

/-- Reads digits of a base with single underscores between them on top of the value of those
before; `afterDigit` says whether the last character was a digit. -/
def digitsFrom (base : Nat) (afterDigit : Bool) (value : Nat) : List Char → Option Nat
  | [] => if afterDigit then some value else none
  | '_' :: rest => if afterDigit then digitsFrom base false value rest else none
  | c :: rest =>
    match digitValue? c with
    | some digit => if digit < base then digitsFrom base true (base * value + digit) rest else none
    | none => none

/-- The letter after a zero that may announce the digits of a base. -/
def baseMark? (base : Nat) : Option Char := [(2, 'b'), (8, 'o'), (16, 'x')].lookup base

def withoutMark (base : Nat) : List Char → List Char
  | zero :: mark :: rest =>
    if digitValue? zero = some 0 ∧ baseMark? base = some mark.toLower then
      if rest.head? = some '_' then rest.drop 1 else rest
    else zero :: mark :: rest
  | cs => cs

/-- The whole number that a text denotes by digits of a base up to sixteen. Only of decimal digits
there may be too many. -/
def inBase? (base : Nat) (cs : List Char) : Option Int :=
  let (negative, cs) := unsigned (trim cs)
  if base = 10 ∧ digitLimit < (cs.filter fun c => (digitValue? c).isSome).length then none
  else
    (digitsFrom base false 0 (withoutMark base cs)).map fun n =>
      if negative then -(n : Int) else n

def int? (s : String) : Option Int := inBase? 10 s.toList

end ApiBinding.Numeral
