import ApiBinding.Moment
import ApiBinding.Number.Digits
import ApiBinding.Text.Pieces
import ApiBinding.Yaml.Scalar

/-!
Plain texts that stand for dates and times.
-/

namespace ApiBinding.Yaml

/-- The number that digits at the front give, of which there are at least and at most so many. -/
def digits? (least most : Nat) (cs : List Char) : Option (Nat × List Char) :=
  let digits := (cs.take most).takeWhile Char.isDigit
  if digits.length < least then none
  else some (Digits.decimal digits, cs.drop digits.length)

def date? (cs : List Char) : Option (Moment × List Char) := do
  let (year, cs) ← digits? 4 4 cs
  let (month, cs) ← digits? 1 2 (← Text.after? ['-'] cs)
  let (day, cs) ← digits? 1 2 (← Text.after? ['-'] cs)
  return ({ year, month, day }, cs)

def offsetMinutes? (cs : List Char) : Option Nat := do
  let (hours, cs) ← digits? 1 2 cs
  if cs.isEmpty then return 60 * hours
  let (minutes, cs) ← digits? 2 2 (← Text.after? [':'] cs)
  if cs.isEmpty then return 60 * hours + minutes else none

def offset? (cs : List Char) : Option (Option Int) :=
  match cs.isEmpty, cs.dropWhile isGap with
  | true, _ => some none
  | _, ['Z'] => some (some 0)
  | _, '+' :: cs => (offsetMinutes? cs).map fun n => some n
  | _, '-' :: cs => (offsetMinutes? cs).map fun n => some (-(n : Int))
  | _, _ => none

def afterDate? : List Char → Option (List Char)
  | [] => none
  | c :: cs =>
    if c = 'T' ∨ c = 't' then some cs else if isGap c then some (cs.dropWhile isGap) else none

def clock? (cs : List Char) : Option Clock := do
  let (hour, cs) ← digits? 1 2 (← afterDate? cs)
  let (minute, cs) ← digits? 2 2 (← Text.after? [':'] cs)
  let (second, cs) ← digits? 2 2 (← Text.after? [':'] cs)
  let fraction := if cs.head? = some '.' then (cs.drop 1).takeWhile Char.isDigit else []
  let cs := if cs.head? = some '.' then cs.drop (fraction.length + 1) else cs
  let micro := Digits.decimal ((fraction ++ List.replicate 6 '0').take 6)
  return { hour, minute, second, micro, offset := ← offset? cs }

/-- The date or time that the characters give; there need not be such a date. -/
def moment? (cs : List Char) : Option Moment := do
  let (date, cs) ← date? cs
  if cs.isEmpty then return date
  return { date with clock := some (← clock? cs) }

/-- Whether the text stands for a date or a time. Without a time of day all digits of the date are
written. -/
def isMoment (cs : List Char) : Bool :=
  (moment? cs).any fun m => m.clock.isSome || cs.length == 10

end ApiBinding.Yaml
