/-!
Binary floating-point numbers of 64 bits, held exactly: a sign, a significand and a power of two.
A decimal numeral is read by rounding the rational number it denotes to the nearest such number.
-/

namespace ApiBinding

/-- A binary number of 64 bits; the finite ones are plus or minus `significand * 2 ^ exponent`. -/
inductive Binary64 where
  | finite (negative : Bool) (significand : Nat) (exponent : Int)
  | infinite (negative : Bool)
  | nan
deriving DecidableEq

namespace Binary64

/-- The power of two, one for an exponent below zero. -/
def twoTo (exponent : Int) : Nat := Nat.pow 2 exponent.toNat

def tenTo (exponent : Int) : Nat := Nat.pow 10 exponent.toNat

/-- The quotient rounded to the nearest whole number, a half going to the even neighbour. -/
def roundHalfEven (num den : Nat) : Nat :=
  let quotient := num / den
  let rest := num % den
  if 2 * rest < den ∨ (2 * rest = den ∧ quotient % 2 = 0) then quotient else quotient + 1

/-- The quotient `num / den` divided by a power of two, as a numerator and a denominator. -/
def scaled (num den : Nat) (exponent : Int) : Nat × Nat :=
  (num * twoTo (-exponent), den * twoTo exponent)

/-- The number nearest to `num / den`; beyond the largest finite number it is infinite. -/
def ofRatio (negative : Bool) (num den : Nat) : Binary64 :=
  if num = 0 then .finite negative 0 (-1074)
  else
    let guess : Int := (num.log2 : Int) - (den.log2 : Int) - 52
    let (n, d) := scaled num den guess
    let exponent := max (-1074) (if d * twoTo 52 ≤ n then guess else guess - 1)
    let (n, d) := scaled num den exponent
    let significand := roundHalfEven n d
    let (significand, exponent) :=
      if significand = twoTo 53 then (twoTo 52, exponent + 1) else (significand, exponent)
    if 971 < exponent then .infinite negative else .finite negative significand exponent

/-- The number nearest to `digits * 10 ^ exponent`. Exponents that are far out of range are
answered without writing out the power. -/
def ofDecimal (negative : Bool) (digits : Nat) (exponent : Int) : Binary64 :=
  if digits = 0 ∨ exponent < -(330 + (digits.log2 : Int)) then .finite negative 0 (-1074)
  else if 310 < exponent then .infinite negative
  else ofRatio negative (digits * tenTo exponent) (tenTo (-exponent))

def isZero : Binary64 → Bool
  | .finite _ significand _ => significand == 0
  | _ => false

/-- Equality of numbers: both zeros are equal and no number equals a number that is none. -/
def same : Binary64 → Binary64 → Bool
  | .finite s m e, .finite s' m' e' =>
    (m == 0 && m' == 0) || (s == s' && m == m' && e == e')
  | .infinite s, .infinite s' => s == s'
  | _, _ => false

def isInt : Binary64 → Int → Bool
  | .finite negative significand exponent, i =>
    significand * twoTo exponent == i.natAbs * twoTo (-exponent)
      && (significand == 0 || negative == decide (i < 0))
  | _, _ => false

def negated : Binary64 → Binary64
  | .finite negative significand exponent => .finite (!negative) significand exponent
  | .infinite negative => .infinite !negative
  | .nan => .nan

def isNegative : Binary64 → Bool
  | .finite negative _ _ | .infinite negative => negative
  | .nan => false

def times : Binary64 → Binary64 → Binary64
  | .nan, _ | _, .nan => .nan
  | .finite s m e, .finite s' m' e' =>
    ofRatio (s != s') (m * m' * twoTo (e + e')) (twoTo (-(e + e')))
  | x, y => if x.isZero || y.isZero then .nan else .infinite (x.isNegative != y.isNegative)

def shifted (negative : Bool) (significand : Nat) (exponent lower : Int) : Int :=
  let n : Int := significand * twoTo (exponent - lower)
  if negative then -n else n

/-- The sum, rounded to the nearest number; a sum of nothing has a minus if both parts have. -/
def plus : Binary64 → Binary64 → Binary64
  | .nan, _ | _, .nan => .nan
  | .finite s m e, .finite s' m' e' =>
    let least := min e e'
    let sum := shifted s m e least + shifted s' m' e' least
    let negative := if sum = 0 then s && s' else decide (sum < 0)
    ofRatio negative (sum.natAbs * twoTo least) (twoTo (-least))
  | .infinite s, .infinite s' => if s = s' then .infinite s else .nan
  | .infinite s, _ | _, .infinite s => .infinite s

end Binary64

end ApiBinding
