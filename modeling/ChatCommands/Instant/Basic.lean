import ChatCommands.Text.Basic

/-!
Dates with a time of day, and optionally the distance from universal time.

The calendar is the proleptic Gregorian one, years 1 to 9999. The distance is in microseconds and
less than a day.
-/

namespace ChatCommands

structure Instant where
  year : Nat
  month : Nat
  day : Nat
  hour : Nat
  minute : Nat
  second : Nat
  micro : Nat
  offset : Option Int
deriving DecidableEq

namespace Instant

def isLeap (year : Nat) : Bool :=
  year % 4 == 0 && (year % 100 != 0 || year % 400 == 0)

def daysInMonth (year month : Nat) : Nat :=
  if month = 2 then if isLeap year then 29 else 28
  else if month = 4 ∨ month = 6 ∨ month = 9 ∨ month = 11 then 30
  else 31

def daysBeforeYear (year : Nat) : Int :=
  let y : Int := (year : Int) - 1
  y * 365 + Int.fdiv y 4 - Int.fdiv y 100 + Int.fdiv y 400

/-- The day of the week of the first of January, Monday being zero. -/
def firstWeekday (year : Nat) : Int :=
  Int.fmod (daysBeforeYear year) 7

/-- The number of the Monday on which week 1 of a year begins, day 1 being the first of year 1. -/
def firstMonday (year : Nat) : Int :=
  let monday := daysBeforeYear year + 1 - firstWeekday year
  if 3 < firstWeekday year then monday + 7 else monday

def weeksInYear (year : Nat) : Nat :=
  if firstWeekday year = 3 ∨ (firstWeekday year = 2 ∧ isLeap year) then 53 else 52

/-- The month and day of the day of a year, counted from one. -/
def monthAndDay (year : Nat) (dayOfYear : Nat) : Nat × Nat :=
  go 1 dayOfYear 12
where
  go (month rest : Nat) : Nat → Nat × Nat
    | 0 => (month, rest)
    | fuel + 1 =>
      if rest ≤ daysInMonth year month then (month, rest)
      else go (month + 1) (rest - daysInMonth year month) fuel

/-- The date of a day of a week, which may lie in a neighbouring year. -/
def ofWeek? (year week weekday : Nat) : Option (Nat × Nat × Nat) :=
  if week = 0 ∨ weeksInYear year < week ∨ weekday = 0 ∨ 7 < weekday then none
  else
    let number := firstMonday year + 7 * ((week : Int) - 1) + ((weekday : Int) - 1)
    ([year - 1, year, year + 1].find? fun y =>
        daysBeforeYear y < number ∧ number ≤ daysBeforeYear (y + 1)).map fun y =>
      let (month, day) := monthAndDay y (number - daysBeforeYear y).toNat
      (y, month, day)

/-- Whether all parts lie in their ranges. -/
def isValid (i : Instant) : Bool :=
  1 ≤ i.year && i.year ≤ 9999 && 1 ≤ i.month && i.month ≤ 12 && 1 ≤ i.day &&
    i.day ≤ daysInMonth i.year i.month && i.hour < 24 && i.minute < 60 && i.second < 60 &&
    i.micro < 1000000 &&
    match i.offset with
    | none => true
    | some micros => micros.natAbs < 86400000000

/-- A duration in microseconds as hours and minutes, with seconds and a fraction where they are
not zero. -/
def clockText (micros : Nat) : Text :=
  let seconds := micros / 1000000
  let fraction := micros % 1000000
  Text.padded 2 (seconds / 3600) ++ ':' :: Text.padded 2 (seconds / 60 % 60) ++
    (if seconds % 60 = 0 ∧ fraction = 0 then [] else ':' :: Text.padded 2 (seconds % 60)) ++
    (if fraction = 0 then [] else '.' :: Text.padded 6 fraction)

def offsetText (micros : Int) : Text :=
  (if micros < 0 then '-' else '+') :: clockText micros.natAbs

/-- The text of an instant: date, `T`, time, a fraction where there is one, and the offset. -/
def text (i : Instant) : Text :=
  Text.padded 4 i.year ++ '-' :: Text.padded 2 i.month ++ '-' :: Text.padded 2 i.day ++
    'T' :: Text.padded 2 i.hour ++ ':' :: Text.padded 2 i.minute ++
    ':' :: Text.padded 2 i.second ++
    (if i.micro = 0 then [] else '.' :: Text.padded 6 i.micro) ++
    (i.offset.map offsetText).getD []

end Instant

end ChatCommands
