/-!
Dates, with or without a time of day.
-/

namespace ApiBinding

/-- A time of day; the offset from universal time counts minutes. -/
structure Clock where
  hour : Nat
  minute : Nat
  second : Nat
  micro : Nat
  offset : Option Int
deriving DecidableEq

structure Moment where
  year : Nat
  month : Nat
  day : Nat
  clock : Option Clock := none
deriving DecidableEq

namespace Moment

def padded (width n : Nat) : String :=
  let digits := toString n
  String.ofList (List.replicate (width - digits.length) '0') ++ digits

def daysIn (year month : Nat) : Nat :=
  if month = 2 then
    if year % 4 = 0 ∧ (year % 100 ≠ 0 ∨ year % 400 = 0) then 29 else 28
  else if [4, 6, 9, 11].contains month then 30 else 31

def isClock (clock : Clock) : Bool :=
  clock.hour < 24 && clock.minute < 60 && clock.second < 60
    && (clock.offset.all fun minutes => minutes.natAbs < 24 * 60)

def isValid (m : Moment) : Bool :=
  1 ≤ m.year && 1 ≤ m.month && m.month ≤ 12 && 1 ≤ m.day && m.day ≤ daysIn m.year m.month
    && m.clock.all isClock

def daysBefore (year : Nat) : Nat :=
  let past := year - 1
  365 * past + past / 4 - past / 100 + past / 400

/-- The number of days up to a date, which has to be one. -/
def dayNumber (m : Moment) : Nat :=
  let inYear := (List.range (m.month - 1)).foldl (fun days i => days + daysIn m.year (i + 1)) 0
  daysBefore m.year + inYear + m.day

/-- The microseconds from the first day on in universal time, for a time whose offset is known. -/
def instant? (m : Moment) : Option Int := do
  let clock ← m.clock
  let offset ← clock.offset
  let minutes : Int := ((24 * m.dayNumber + clock.hour) * 60 + clock.minute : Nat) - offset
  return (60 * minutes + clock.second) * 1000000 + clock.micro

/-- Equality by which times with offsets are compared in universal time. -/
def same (m n : Moment) : Bool :=
  match m.instant?, n.instant? with
  | some i, some j => i == j
  | _, _ => m == n

def offsetLiteral (minutes : Int) : String :=
  if minutes = 0 then "datetime.timezone.utc"
  else
    let seconds := (minutes % (24 * 60)) * 60
    "datetime.timezone(datetime.timedelta("
      ++ (if minutes < 0 then "days=-1, " else "") ++ "seconds=" ++ toString seconds ++ "))"

/-- The date or time as a literal; seconds without effect are left out. -/
def literal (m : Moment) : String :=
  let date := toString m.year ++ ", " ++ toString m.month ++ ", " ++ toString m.day
  match m.clock with
  | none => "datetime.date(" ++ date ++ ")"
  | some clock =>
    let micro := if clock.micro = 0 then "" else ", " ++ toString clock.micro
    let second := if clock.second = 0 ∧ clock.micro = 0 then "" else ", " ++ toString clock.second
    let zone := match clock.offset with
      | some minutes => ", tzinfo=" ++ offsetLiteral minutes
      | none => ""
    "datetime.datetime(" ++ date ++ ", " ++ toString clock.hour ++ ", " ++ toString clock.minute
      ++ second ++ micro ++ zone ++ ")"

def offsetText (minutes : Int) : String :=
  (if minutes < 0 then "-" else "+") ++ padded 2 (minutes.natAbs / 60) ++ ":"
    ++ padded 2 (minutes.natAbs % 60)

def text (m : Moment) : String :=
  padded 4 m.year ++ "-" ++ padded 2 m.month ++ "-" ++ padded 2 m.day
    ++ match m.clock with
      | none => ""
      | some clock =>
        " " ++ padded 2 clock.hour ++ ":" ++ padded 2 clock.minute ++ ":" ++ padded 2 clock.second
          ++ (if clock.micro = 0 then "" else "." ++ padded 6 clock.micro)
          ++ ((clock.offset.map offsetText).getD "")

end Moment

end ApiBinding
