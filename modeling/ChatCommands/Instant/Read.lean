import ChatCommands.Instant.Basic

/-!
Reading instants.

A date is written by months or by weeks, with or without dashes. After one character of any kind
may follow a time with two digits for each part, with or without colons, a fraction of which six
digits count, and the distance from universal time.
-/

namespace ChatCommands.Instant

def digit? (c : Char) : Option Nat :=
  if c.isDigit then some (c.toNat - '0'.toNat) else none

/-- A number of exactly `count` digits, and what follows. -/
def readDigits (count : Nat) (t : Text) : Option (Nat × Text) :=
  let digits := t.take count
  if digits.length = count ∧ digits.all Char.isDigit then
    some (digits.foldl (fun n c => 10 * n + (c.toNat - '0'.toNat)) 0, t.drop count)
  else none

/-- The length of the date at the start of a text. A date by weeks may have no day, and then the
place of the next character that is no digit decides. -/
def dateLength? (t : Text) : Option Nat :=
  if t.length < 7 then none
  else if t.length = 7 then some 7
  else if t[4]? = some '-' then
    if t[5]? = some 'W' then
      if t[8]? = some '-' then
        if t.length = 9 then none
        else if ((t[10]?).map Char.isDigit).getD false then some 8
        else some 10
      else some 8
    else some 10
  else if t[4]? = some 'W' then
    let last := 7 + ((t.drop 7).takeWhile Char.isDigit).length
    if last < 9 then some last else if last % 2 = 0 then some 7 else some 8
  else some 8

/-- A dash, where dashes are used. -/
def readDash (dashed : Bool) (t : Text) : Option Text :=
  if dashed then
    match t with
    | '-' :: rest => some rest
    | _ => none
  else some t

def readDate (t : Text) : Option (Nat × Nat × Nat) := do
  let (year, rest) ← readDigits 4 t
  let dashed := rest.head? == some '-'
  let rest := if dashed then rest.drop 1 else rest
  match rest with
  | 'W' :: rest =>
    let (week, rest) ← readDigits 2 rest
    if rest.isEmpty then ofWeek? year week 1
    else
      let rest ← readDash dashed rest
      let (weekday, _) ← readDigits 1 rest
      ofWeek? year week weekday
  | rest =>
    let (month, rest) ← readDigits 2 rest
    let rest ← readDash dashed rest
    let (day, _) ← readDigits 2 rest
    return (year, month, day)

/-- A time of day in hours, minutes, seconds and microseconds. -/
structure Clock where
  hour : Nat
  minute : Nat
  second : Nat
  micro : Nat

def Clock.totalSeconds (c : Clock) : Nat :=
  (c.hour * 60 + c.minute) * 60 + c.second

/-- A fraction of a second. Digits after the sixth do not count; the text after the digits is
left. -/
def readFraction (t : Text) : Option (Nat × Text) := do
  let count := if t.length < 6 then t.length else 6
  let (n, rest) ← readDigits count t
  return (n * Nat.pow 10 (6 - count), rest.dropWhile Char.isDigit)

/-- The parts of a time, `known` of which have been read, and the text that is left. Which
separator follows the hour decides whether colons are used. -/
def readParts (colons : Bool) : Nat → List Nat → Text → Option (List Nat × Nat × Text)
  | 0, known, t => (readFraction t).map fun (micro, rest) => (known, micro, rest)
  | fuel + 1, known, t => do
    let (n, rest) ← readDigits 2 t
    let known := known ++ [n]
    match rest with
    | [] => return (known, 0, [])
    | c :: more =>
      let colons := if known.length = 1 then c == ':' else colons
      if more.isEmpty then return (known, 0, rest)
      else if colons && c == ':' then readParts colons fuel known more
      else if c == '.' || c == ',' then
        let (micro, left) ← readFraction more
        return (known, micro, left)
      else if !colons then readParts colons fuel known rest
      else none

/-- A time, and the text that is left. -/
def readClock (t : Text) : Option (Clock × Text) := do
  let (parts, micro, rest) ← readParts false 3 [] t
  return (⟨parts[0]?.getD 0, parts[1]?.getD 0, parts[2]?.getD 0, micro⟩, rest)

def isOffsetSign (c : Char) : Bool :=
  c == '+' || c == '-' || c == 'Z'

def readOffset (sign : Char) (t : Text) : Option Int :=
  if sign = 'Z' then if t.isEmpty then some 0 else none
  else do
    let (clock, rest) ← readClock t
    if !rest.isEmpty then none
    else if clock.totalSeconds = 0 then some 0
    else
      let micros : Int := clock.totalSeconds * 1000000 + clock.micro
      some (if sign = '-' then -micros else micros)

def readTime (t : Text) : Option (Clock × Option Int) := do
  let body := t.takeWhile fun c => !isOffsetSign c
  let (clock, rest) ← readClock body
  match t.drop body.length with
  | [] => if rest.isEmpty then return (clock, none) else none
  | sign :: after =>
    let offset ← readOffset sign after
    return (clock, some offset)

/-- The time after a date, midnight where there is none. -/
def readAfterDate (t : Text) : Option (Clock × Option Int) :=
  match t with
  | [] => some (⟨0, 0, 0, 0⟩, none)
  | _ :: rest => readTime rest

def read (t : Text) : Option Instant := do
  let length ← dateLength? t
  let (year, month, day) ← readDate (t.take length)
  let (clock, offset) ← readAfterDate (t.drop length)
  let i : Instant := ⟨year, month, day, clock.hour, clock.minute, clock.second, clock.micro, offset⟩
  if i.isValid then return i else none

end ChatCommands.Instant
