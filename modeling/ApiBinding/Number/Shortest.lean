import ApiBinding.Number.Binary64

/-!
Decimal text of binary numbers: the fewest digits that read back as the same number, written
positionally between `1e-04` and `1e16` and with an exponent of at least two digits elsewhere.
-/

namespace ApiBinding.Binary64

/-- The digits of a decimal number and the power of ten they count. -/
structure Decimal where
  digits : Nat
  exponent : Int
deriving DecidableEq

/-- The numbers between which every number rounds to `significand * 2 ^ exponent`, and that number
itself between them, in quarters of its unit in the last place. -/
def interval (significand : Nat) (exponent : Int) : Nat × Nat × Nat :=
  let low := if significand = twoTo 52 ∧ -1074 < exponent then 4 * significand - 1
    else 4 * significand - 2
  (low, 4 * significand, 4 * significand + 2)

/-- Whether a multiple of a power of ten lies in the interval, whose ends count for an even
significand only. -/
def inInterval (even : Bool) (low high point : Nat) : Bool :=
  if even then low ≤ point && point ≤ high else low < point && point < high

/-- The multiple of `10 ^ power` that lies in the interval of the number and nearest to it. -/
def onGrid? (significand : Nat) (exponent power : Int) : Option Nat :=
  let (low, middle, high) := interval significand exponent
  let unit := twoTo (exponent - 2) * tenTo (-power)
  let grid := twoTo (2 - exponent) * tenTo power
  let below := middle * unit / grid
  let even := significand % 2 == 0
  let hits (d : Nat) : Bool := inInterval even (low * unit) (high * unit) (d * grid)
  let nearBelow := 2 * (middle * unit) < (2 * below + 1) * grid
  let tieBelow := 2 * (middle * unit) = (2 * below + 1) * grid ∧ below % 2 = 0
  if hits below && (nearBelow || tieBelow || !hits (below + 1)) then some below
  else if hits (below + 1) then some (below + 1)
  else none

/-- Tries the grids from coarse to fine; the first with a point in the interval wins. -/
def search (significand : Nat) (exponent : Int) : Nat → Int → Decimal
  | 0, power => ⟨0, power⟩
  | tries + 1, power =>
    match onGrid? significand exponent power with
    | some digits => ⟨digits, power⟩
    | none => search significand exponent tries (power - 1)

/-- The decimal number with the fewest digits that rounds to `significand * 2 ^ exponent`. -/
def shortest (significand : Nat) (exponent : Int) : Decimal :=
  search significand exponent 24 (((significand.log2 : Int) + exponent + 1) * 30103 / 100000 + 1)

def positional (digits : String) (point : Int) : String :=
  let zeros (n : Nat) : String := String.ofList (List.replicate n '0')
  if point ≤ 0 then "0." ++ zeros (-point).toNat ++ digits
  else if (digits.length : Int) ≤ point then digits ++ zeros (point.toNat - digits.length) ++ ".0"
  else
    String.ofList (digits.toList.take point.toNat) ++ "."
      ++ String.ofList (digits.toList.drop point.toNat)

def scientific (digits : String) (exponent : Int) : String :=
  let fraction := String.ofList (digits.toList.drop 1)
  let power := toString exponent.natAbs
  String.ofList (digits.toList.take 1)
    ++ (if fraction = "" then "" else "." ++ fraction)
    ++ (if exponent < 0 then "e-" else "e+")
    ++ (if power.length < 2 then "0" ++ power else power)

def magnitudeText (significand : Nat) (exponent : Int) : String :=
  if significand = 0 then "0.0"
  else
    let decimal := shortest significand exponent
    let digits := toString decimal.digits
    let point := (digits.length : Int) + decimal.exponent
    if -4 < point ∧ point ≤ 16 then positional digits point else scientific digits (point - 1)

/-- The shortest text that reads back as the number. -/
def text : Binary64 → String
  | .finite negative significand exponent =>
    (if negative then "-" else "") ++ magnitudeText significand exponent
  | .infinite negative => if negative then "-inf" else "inf"
  | .nan => "nan"

end ApiBinding.Binary64
