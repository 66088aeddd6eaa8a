import ApiBinding.Number.Digits
import ApiBinding.Number.Numeral
import ApiBinding.Text.Half
import ApiBinding.Value

/-!
Values read from JSON text. Besides the standard the words for infinite numbers and for no number
are accepted; of entries with one key the last gives the value and the first the place.
-/

namespace ApiBinding.Json

open Text (charOfHalves isHighHalf isLowHalf kept ofCode)

inductive Problem where
  | malformed
  | longNumeral
deriving DecidableEq

def isGap (c : Char) : Bool := c == ' ' || c == '\t' || c == '\n' || c == '\r'

def skipGap (cs : List Char) : List Char := cs.dropWhile isGap

def fourHex? : List Char → Option (Nat × List Char)
  | a :: b :: c :: d :: rest =>
    if [a, b, c, d].all Digits.isHex then some (Digits.inBase 16 [a, b, c, d], rest) else none
  | _ => none

/-- What the code that follows an escaped `u` stands for; two codes may be a pair. -/
def escapedCode? (cs : List Char) : Option (List Char × List Char) :=
  (fourHex? cs).map fun (high, rest) =>
    match rest with
    | '\\' :: 'u' :: after =>
      match fourHex? after with
      | some (low, rest') =>
        if isHighHalf high && isLowHalf low then (kept (charOfHalves high low), rest')
        else (ofCode high, rest)
      | none => (ofCode high, rest)
    | _ => (ofCode high, rest)

def escapedChar? : Char → Option Char
  | '"' => some '"'
  | '\\' => some '\\'
  | '/' => some '/'
  | 'b' => some '\x08'
  | 'f' => some '\x0c'
  | 'n' => some '\n'
  | 'r' => some '\r'
  | 't' => some '\t'
  | _ => none

/-- Reads a string after its opening quote; `start` holds what is read so far, in reverse. Each
character costs a unit of fuel. -/
def string : Nat → List Char → List Char → Except Problem (String × List Char)
  | 0, _, _ => .error .malformed
  | _, _, [] => .error .malformed
  | fuel + 1, start, c :: rest =>
    if c = '"' then .ok (String.ofList start.reverse, rest)
    else if c = '\\' then
      match rest with
      | 'u' :: code =>
        match escapedCode? code with
        | some (unit, rest) => string fuel (unit.reverse ++ start) rest
        | none => .error .malformed
      | e :: rest =>
        match escapedChar? e with
        | some d => string fuel (d :: start) rest
        | none => .error .malformed
      | [] => .error .malformed
    else if c.toNat < 32 then .error .malformed
    else string fuel ((kept c).reverse ++ start) rest

/-- The fraction at the front, without its point; none if no digit follows the point. -/
def fraction : List Char → List Char × List Char
  | '.' :: c :: rest =>
    if c.isDigit then (c :: rest.takeWhile Char.isDigit, rest.dropWhile Char.isDigit)
    else ([], '.' :: c :: rest)
  | cs => ([], cs)

def exponent? : List Char → Option (Int × List Char)
  | e :: rest =>
    if e = 'e' ∨ e = 'E' then
      let (negative, digits) : Bool × List Char := match rest with
        | '-' :: digits => (true, digits)
        | '+' :: digits => (false, digits)
        | digits => (false, digits)
      let magnitude := digits.takeWhile Char.isDigit
      if magnitude.isEmpty then none
      else
        let n : Int := Digits.decimal magnitude
        some (if negative then -n else n, digits.dropWhile Char.isDigit)
    else none
  | [] => none

/-- The digits of a whole number at the front: a zero, or digits that do not start with one. -/
def wholeDigits : List Char → List Char × List Char
  | '0' :: rest => (['0'], rest)
  | cs => (cs.takeWhile Char.isDigit, cs.dropWhile Char.isDigit)

def number (negative : Bool) (cs : List Char) : Except Problem (Scalar × List Char) :=
  let (whole, rest) := wholeDigits cs
  if whole.isEmpty then .error .malformed
  else
    let (part, rest) := fraction rest
    match part, exponent? rest with
    | [], none =>
      if Numeral.digitLimit < whole.length then .error .longNumeral
      else
        let n : Int := Digits.decimal whole
        .ok (.int (if negative then -n else n), rest)
    | part, some (power, rest) =>
      let digits := Digits.decimal (whole ++ part)
      .ok (.float (.ofDecimal negative digits (power - part.length)), rest)
    | part, none =>
      .ok (.float (.ofDecimal negative (Digits.decimal (whole ++ part)) (-part.length)), rest)

def words : List (String × Scalar) :=
  [("null", .null), ("true", .bool true), ("false", .bool false), ("NaN", .nan 0),
    ("Infinity", .float (.infinite false)), ("-Infinity", .float (.infinite true))]

def plain (cs : List Char) : Except Problem (Scalar × List Char) :=
  match words.findSome? fun (word, s) => (Text.after? word.toList cs).map (s, ·) with
  | some result => .ok result
  | none =>
    match cs with
    | '-' :: rest => number true rest
    | cs => number false cs

mutual

/-- Reads a value. The fuel bounds the depth of the recursion. -/
def value : Nat → List Char → Except Problem (Value × List Char)
  | 0, _ => .error .malformed
  | fuel + 1, cs =>
    match cs with
    | '"' :: rest => do
      let (s, rest) ← string (rest.length + 1) [] rest
      return (.text s, rest)
    | '[' :: rest =>
      match skipGap rest with
      | ']' :: rest => .ok (.list [], rest)
      | rest => do
        let (items, rest) ← items fuel rest
        return (.list items, rest)
    | '\x7b' :: rest =>
      match skipGap rest with
      | '\x7d' :: rest => .ok (.map [], rest)
      | rest => do
        let (entries, rest) ← members fuel [] rest
        return (.map entries, rest)
    | cs => do
      let (s, rest) ← plain cs
      return (.scalar s, rest)

def items : Nat → List Char → Except Problem (List Value × List Char)
  | 0, _ => .error .malformed
  | fuel + 1, cs => do
    let (item, rest) ← value fuel cs
    match skipGap rest with
    | ',' :: rest => do
      let (others, rest) ← items fuel (skipGap rest)
      return (item :: others, rest)
    | ']' :: rest => return ([item], rest)
    | _ => throw .malformed

/-- Reads the entries of a map up to its end, in addition to those read before. -/
def members : Nat → List (Scalar × Value) → List Char →
    Except Problem (List (Scalar × Value) × List Char)
  | 0, _, _ => .error .malformed
  | fuel + 1, before, '"' :: rest => do
    let (key, rest) ← string (rest.length + 1) [] rest
    match skipGap rest with
    | ':' :: rest => do
      let (v, rest) ← value fuel (skipGap rest)
      let entries := Entries.put Scalar.same (.text key) v before
      match skipGap rest with
      | ',' :: rest => members fuel entries (skipGap rest)
      | '\x7d' :: rest => return (entries, rest)
      | _ => throw .malformed
    | _ => throw .malformed
  | _ + 1, _, _ => .error .malformed

end

def read (s : String) : Except Problem Value := do
  let cs := s.toList
  let (v, rest) ← value (2 * cs.length + 2) (skipGap cs)
  if (skipGap rest).isEmpty then return v else throw .malformed

end ApiBinding.Json
