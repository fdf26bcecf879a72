import ChatCommands.Json.Basic

/-!
Reading JSON.

The reader walks the text once and keeps the position it has reached, so that an error can say
where it arose. A numeral with a point or an exponent is a float, any other an integer. `NaN`,
`Infinity` and `-Infinity` are accepted, and a repeated name keeps its first place and its last
value.
-/

namespace ChatCommands.Json

/-- What the reader missed or met. -/
inductive Problem where
  | value
  | name
  | colon
  | comma
  | control
  | unterminated
  | escape
  | unicodeEscape
  | extra
  | byteOrderMark
deriving DecidableEq

def Problem.text : Problem → String
  | .value => "Expecting value"
  | .name => "Expecting property name enclosed in double quotes"
  | .colon => "Expecting ':' delimiter"
  | .comma => "Expecting ',' delimiter"
  | .control => "Invalid control character at"
  | .unterminated => "Unterminated string starting at"
  | .escape => "Invalid \\escape"
  | .unicodeEscape => "Invalid \\uXXXX escape"
  | .extra => "Extra data"
  | .byteOrderMark => "Unexpected UTF-8 BOM (decode using utf-8-sig)"

/-- Why a text was not read. -/
inductive ReadError where
  | malformed (problem : Problem) (position : Nat)
  | tooManyDigits
deriving DecidableEq

/-- What is left to read, and the position where it begins. -/
structure Cursor where
  position : Nat
  rest : Text

namespace Cursor

def skip (c : Cursor) (n : Nat) : Cursor :=
  ⟨c.position + n, c.rest.drop n⟩

def fail (c : Cursor) (problem : Problem) : Except ReadError α :=
  .error (.malformed problem c.position)

/-- The white space that may stand between the signs of a JSON text. -/
def isSpace (c : Char) : Bool :=
  c = ' ' || c = '\t' || c = '\n' || c = '\r'

def skipSpace (c : Cursor) : Cursor :=
  c.skip (c.rest.takeWhile isSpace).length

def startsWith (c : Cursor) (word : Text) : Bool :=
  word.isPrefixOf c.rest

end Cursor

def hexDigit? (c : Char) : Option Nat :=
  if '0' ≤ c ∧ c ≤ '9' then some (c.toNat - '0'.toNat)
  else if 'a' ≤ c ∧ c ≤ 'f' then some (c.toNat - 'a'.toNat + 10)
  else if 'A' ≤ c ∧ c ≤ 'F' then some (c.toNat - 'A'.toNat + 10)
  else none

def hexUnit? (a b c d : Char) : Option Nat := do
  let p ← hexDigit? a
  let q ← hexDigit? b
  let r ← hexDigit? c
  let s ← hexDigit? d
  return ((p * 16 + q) * 16 + r) * 16 + s

def isHighSurrogate (n : Nat) : Bool := 0xd800 ≤ n && n < 0xdc00
def isLowSurrogate (n : Nat) : Bool := 0xdc00 ≤ n && n < 0xe000

/-- The text of a sequence of code units. Two halves of a surrogate pair make one character, and
half a pair alone gives the replacement character. -/
def joinUnits : List Nat → Text
  | [] => []
  | [n] => [unitChar n]
  | high :: low :: rest =>
    if isHighSurrogate high && isLowSurrogate low then
      Char.ofNat (0x10000 + (high - 0xd800) * 0x400 + (low - 0xdc00)) :: joinUnits rest
    else unitChar high :: joinUnits (low :: rest)
where
  unitChar (n : Nat) : Char :=
    if isHighSurrogate n || isLowSurrogate n then '\ufffd' else Char.ofNat n

def escaped? (c : Char) : Option Char :=
  if c = '\x22' ∨ c = '\\' ∨ c = '/' then some c
  else if c = 'b' then some '\x08'
  else if c = 'f' then some '\x0c'
  else if c = 'n' then some '\n'
  else if c = 'r' then some '\r'
  else if c = 't' then some '\t'
  else none

def consUnit (n : Nat) (r : Except ReadError (List Nat × Cursor)) :
    Except ReadError (List Nat × Cursor) :=
  r.map fun (units, cursor) => (n :: units, cursor)

/-- The units of a string after its opening quote, which stands at `start`. -/
def readUnits (start position : Nat) : Text → Except ReadError (List Nat × Cursor)
  | [] => .error (.malformed .unterminated start)
  | c :: rest =>
    if c = '\x22' then .ok ([], ⟨position + 1, rest⟩)
    else if c = '\\' then
      match rest with
      | [] => .error (.malformed .unterminated start)
      | e :: more =>
        if e = 'u' then
          match more with
          | p :: q :: r :: s :: after =>
            match hexUnit? p q r s with
            | none => .error (.malformed .unicodeEscape (position + 1))
            | some unit =>
              if after.isEmpty then .error (.malformed .unicodeEscape (position + 1))
              else consUnit unit (readUnits start (position + 6) after)
          | _ => .error (.malformed .unicodeEscape (position + 1))
        else
          match escaped? e with
          | none => .error (.malformed .escape position)
          | some d => consUnit d.toNat (readUnits start (position + 2) more)
    else if c.toNat < 0x20 then .error (.malformed .control position)
    else consUnit c.toNat (readUnits start (position + 1) rest)

/-- A string after its opening quote, which stands at `start`. -/
def readString (start : Nat) (rest : Text) : Except ReadError (Text × Cursor) :=
  (readUnits start (start + 1) rest).map fun (units, next) => (joinUnits units, next)

def isAsciiDigit (c : Char) : Bool :=
  '0' ≤ c && c ≤ '9'

/-- The digits at the start of a text, and what follows. -/
def asciiDigits (t : Text) : Text × Text :=
  (t.takeWhile isAsciiDigit, t.dropWhile isAsciiDigit)

def digitsValue (digits : Text) : Nat :=
  Numeral.ofDigits (digits.map fun c => c.toNat - '0'.toNat)

/-- The whole part of a numeral: one zero, or digits that start with another. -/
def wholePart : Text → Option (Text × Text)
  | '0' :: rest => some (['0'], rest)
  | t => if (asciiDigits t).1.isEmpty then none else some (asciiDigits t)

/-- The digits after a decimal point, where there are any. -/
def fractionPart : Text → Text × Text
  | '.' :: rest => if (asciiDigits rest).1.isEmpty then ([], '.' :: rest) else asciiDigits rest
  | t => ([], t)

/-- The exponent, where there is one, with the length of its text. -/
def exponentPart : Text → Option (Int × Nat × Text)
  | c :: rest =>
    if c = 'e' ∨ c = 'E' then
      let (negative, body) := Numeral.sign rest
      let (digits, after) := asciiDigits body
      if digits.isEmpty then none
      else
        let value : Int := digitsValue digits
        some (if negative then -value else value, 1 + (rest.length - after.length), after)
    else none
  | [] => none

def readNumber (c : Cursor) : Except ReadError (Json × Cursor) :=
  let negative := c.startsWith ['-']
  match wholePart (if negative then c.rest.drop 1 else c.rest) with
  | none => c.fail .value
  | some (whole, afterWhole) =>
    let (fraction, afterFraction) := fractionPart afterWhole
    let signLength := if negative then 1 else 0
    let pointLength := if fraction.isEmpty then 0 else 1 + fraction.length
    let next : Nat → Text → Cursor := fun extra rest =>
      ⟨c.position + signLength + whole.length + pointLength + extra, rest⟩
    let float := fun (power : Int) =>
      Json.scalar (.float (Binary64.ofDecimal negative (digitsValue (whole ++ fraction))
        (power - fraction.length)))
    match exponentPart afterFraction with
    | some (power, extra, rest) => .ok (float power, next extra rest)
    | none =>
      if !fraction.isEmpty then .ok (float 0, next 0 afterFraction)
      else if Numeral.maxDigits < whole.length then .error .tooManyDigits
      else
        let n : Int := digitsValue whole
        .ok (.int (if negative then -n else n), next 0 afterFraction)

def words : List (Text × Json) := [
  ("null".toList, .null),
  ("true".toList, .scalar (.bool true)),
  ("false".toList, .scalar (.bool false)),
  ("NaN".toList, .scalar (.float .nan)),
  ("Infinity".toList, .scalar (.float (.infinite false))),
  ("-Infinity".toList, .scalar (.float (.infinite true)))]

def readWord (c : Cursor) : Except ReadError (Json × Cursor) :=
  match words.find? fun w => c.startsWith w.1 with
  | some (word, value) => .ok (value, c.skip word.length)
  | none => readNumber c

mutual
/-- A value. The fuel bounds the characters that are left, each of which takes one unit at most. -/
def readValue : Nat → Cursor → Except ReadError (Json × Cursor)
  | 0, c => c.fail .value
  | fuel + 1, c =>
    match c.rest with
    | '\x22' :: rest =>
      (readString c.position rest).map fun (t, next) => (.text t, next)
    | '[' :: _ =>
      let inside := (c.skip 1).skipSpace
      if inside.startsWith [']'] then .ok (.array [], inside.skip 1)
      else (readItems fuel inside).map fun (items, next) => (.array items, next)
    | '\x7b' :: _ =>
      let inside := (c.skip 1).skipSpace
      if inside.startsWith ['\x7d'] then .ok (.object [], inside.skip 1)
      else (readFields fuel inside).map fun (fields, next) => (.object (mergeFields fields), next)
    | _ => readWord c

def readItems : Nat → Cursor → Except ReadError (List Json × Cursor)
  | 0, c => c.fail .value
  | fuel + 1, c => do
    let (item, next) ← readValue fuel c
    let next := next.skipSpace
    if next.startsWith [']'] then return ([item], next.skip 1)
    else if next.startsWith [','] then
      let (items, final) ← readItems fuel (next.skip 1).skipSpace
      return (item :: items, final)
    else next.fail .comma

def readFields : Nat → Cursor → Except ReadError (List (Text × Json) × Cursor)
  | 0, c => c.fail .name
  | fuel + 1, c => do
    if !c.startsWith ['\x22'] then c.fail .name
    else
      let (name, next) ← readString c.position (c.rest.drop 1)
      let next := next.skipSpace
      if !next.startsWith [':'] then next.fail .colon
      else
        let (value, next) ← readValue fuel (next.skip 1).skipSpace
        let next := next.skipSpace
        if next.startsWith ['\x7d'] then return ([(name, value)], next.skip 1)
        else if next.startsWith [','] then
          let (fields, final) ← readFields fuel (next.skip 1).skipSpace
          return ((name, value) :: fields, final)
        else next.fail .comma
end

def read (t : Text) : Except ReadError Json := do
  let start : Cursor := ⟨0, t⟩
  if start.startsWith ['\ufeff'] then start.fail .byteOrderMark
  else
    let (value, next) ← readValue (2 * t.length + 2) start.skipSpace
    let final := next.skipSpace
    if final.rest.isEmpty then return value else final.fail .extra

/-- The wording of a problem, with its line and column in the text that was read. -/
def describe (t : Text) (problem : Problem) (position : Nat) : Text :=
  let before := t.take position
  let line := before.count '\n' + 1
  let column := (before.reverse.takeWhile (· ≠ '\n')).length + 1
  problem.text.toList ++ ": line ".toList ++ Text.ofNat line ++ " column ".toList ++
    Text.ofNat column ++ " (char ".toList ++ Text.ofNat position ++ ")".toList

end ChatCommands.Json
