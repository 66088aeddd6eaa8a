import ApiBinding.Number.Binary64
import ApiBinding.Number.Digits
import ApiBinding.Number.Numeral
import ApiBinding.Text.Case
import ApiBinding.Text.Pieces
import ApiBinding.Yaml.Problem

/-!
Plain texts that stand for numbers. Whole numbers are written with base 2, 8, 10, 16 or 60, and the
parts of a number by sixties are separated by colons; underscores mean nothing.
-/

namespace ApiBinding.Yaml

open Numeral (inBase? trim unsigned)

def isRunOf (isDigit : Char → Bool) (cs : List Char) : Bool :=
  !cs.isEmpty && cs.all fun c => isDigit c || c == '_'

/-- Whether the characters are decimal digits and underscores with a digit in front. -/
def isDecimalRun (cs : List Char) : Bool :=
  isRunOf Char.isDigit cs && (cs.headD '_').isDigit

/-- Whether the characters write a number below sixty with at most two digits. -/
def isSixtieth : List Char → Bool
  | [c] => c.isDigit
  | [c, d] => '0' ≤ c && c ≤ '5' && d.isDigit
  | _ => false

def isInt (cs : List Char) : Bool :=
  match (unsigned cs).2 with
  | ['0'] => true
  | '0' :: 'b' :: digits => isRunOf (fun c => c == '0' || c == '1') digits
  | '0' :: 'x' :: digits => isRunOf Digits.isHex digits
  | '0' :: digits => isRunOf (fun c => '0' ≤ c && c ≤ '7') digits
  | cs =>
    match Text.pieces (· == ':') cs with
    | whole :: parts => isDecimalRun whole && parts.all isSixtieth
    | [] => false

/-- Whether the text is empty or an exponent with its sign. -/
def isPower : List Char → Bool
  | [] => true
  | e :: sign :: digits =>
    (e == 'e' || e == 'E') && (sign == '+' || sign == '-') && !digits.isEmpty
      && digits.all Char.isDigit
  | _ => false

def isFloat (cs : List Char) : Bool :=
  let bare := (unsigned cs).2
  [".inf", ".Inf", ".INF"].contains (String.ofList bare)
    || [".nan", ".NaN", ".NAN"].contains (String.ofList cs)
    || match Text.splitFirst? '.' bare with
      | some (whole, after) =>
        let fraction := after.takeWhile fun c => c.isDigit || c == '_'
        let power := after.drop fraction.length
        match Text.pieces (· == ':') whole with
        | [[]] => bare.length == cs.length && isDecimalRun fraction && isPower power
        | [whole] => isDecimalRun whole && isPower power
        | whole :: parts => isDecimalRun whole && parts.all isSixtieth && power.isEmpty
        | [] => false
      | none => false

/-- The sign and the other characters of a numeral without its underscores; there has to be a
character to look at. -/
def signed (cs : List Char) : Except Misuse (Bool × List Char) :=
  let cs := cs.filter (· != '_')
  if cs.isEmpty then .error .pastEnd else .ok (unsigned cs)

def orNumeral {α : Type} : Option α → Except Misuse α
  | some a => .ok a
  | none => .error .numeral

def magnitude : List Char → Except Misuse Int
  | [] => .error .pastEnd
  | ['0'] => .ok 0
  | '0' :: 'b' :: digits => orNumeral (inBase? 2 digits)
  | '0' :: 'x' :: digits => orNumeral (inBase? 16 digits)
  | '0' :: digits => orNumeral (inBase? 8 ('0' :: digits))
  | cs => do
    let parts ← orNumeral ((Text.pieces (· == ':') cs).mapM (inBase? 10))
    return parts.foldl (fun n part => 60 * n + part) 0

def int (text : String) : Except Misuse Int := do
  let (negative, cs) ← signed text.toList
  let n ← magnitude cs
  return if negative then -n else n

def plainDigit (c : Char) : Char :=
  match Text.digitValue? c with
  | some n => Char.ofNat (48 + n)
  | none => c

def decimal? (cs : List Char) : Option Binary64 :=
  let whole := cs.takeWhile Char.isDigit
  let rest := cs.drop whole.length
  let fraction := if rest.head? = some '.' then (rest.drop 1).takeWhile Char.isDigit else []
  let rest := if rest.head? = some '.' then rest.drop (fraction.length + 1) else rest
  let digits := whole ++ fraction
  let power? : Option Int := match rest with
    | [] => some 0
    | 'e' :: power =>
      let (negative, power) := unsigned power
      if power.isEmpty ∨ !power.all Char.isDigit then none
      else some (if negative then -(Digits.decimal power) else Digits.decimal power)
    | _ => none
  if digits.isEmpty then none
  else power?.map fun power =>
    .ofDecimal false (Digits.decimal digits) (power - fraction.length)

def binary? (cs : List Char) : Option Binary64 :=
  let (negative, cs) := unsigned ((trim cs).map plainDigit)
  let word := String.ofList cs
  let number? : Option Binary64 :=
    if word = "inf" ∨ word = "infinity" then some (.infinite false)
    else if word = "nan" then some .nan
    else decimal? cs
  number?.map fun x => if negative then x.negated else x

/-- The number that parts by sixties denote, from the last part on; each step is rounded. -/
def bySixties (unit : Nat) (sum : Binary64) : List Binary64 → Except Misuse Binary64
  | [] => .ok sum
  | part :: parts =>
    match Binary64.ofRatio false unit 1 with
    | .infinite _ => .error .overflow
    | factor => bySixties (60 * unit) (sum.plus (part.times factor)) parts

def float (text : String) : Except Misuse Scalar := do
  let (negative, cs) ← signed (Text.lower text).toList
  if String.ofList cs = ".nan" then return .nan 0
  let x ←
    if String.ofList cs = ".inf" then pure (.infinite false)
    else if cs.contains ':' then do
      let parts ← orNumeral ((Text.pieces (· == ':') cs).mapM binary?)
      bySixties 1 (.finite false 0 (-1074)) parts.reverse
    else orNumeral (binary? cs)
  return .float (if negative then x.negated else x)

end ApiBinding.Yaml
