import ChatCommands.Number.Numeral
import ChatCommands.Yaml.Tag

/-!
What the text of a plain scalar says about its kind.

The text must have the form of the kind as a whole; a single break at its end does not count.
-/

namespace ChatCommands.Yaml.Plain

def oneOf (words : List String) (t : Text) : Bool :=
  words.any fun w => w.toList = t

def isNull (t : Text) : Bool :=
  oneOf ["", "~", "null", "Null", "NULL"] t

def isBool (t : Text) : Bool :=
  oneOf ["yes", "Yes", "YES", "true", "True", "TRUE", "on", "On", "ON",
    "no", "No", "NO", "false", "False", "FALSE", "off", "Off", "OFF"] t

def isDigitOf (base : Nat) (c : Char) : Bool :=
  (hexDigit? c).any fun d => d < base

/-- Whether a text is one or more digits of a base, with underscores anywhere. -/
def isDigits (base : Nat) (t : Text) : Bool :=
  !t.isEmpty && t.all fun c => c == '_' || isDigitOf base c

/-- Whether a text is decimal digits with underscores, a digit in front. -/
def isWhole (t : Text) : Bool :=
  t.head?.any Char.isDigit && isDigits 10 t

/-- Whether a text is the digits of a sixtieth: 0 to 59. -/
def isSixtieth : Text → Bool
  | [c] => c.isDigit
  | [c, d] => '0' ≤ c && c ≤ '5' && d.isDigit
  | _ => false

/-- Whether a text is digits: in base 2, 8, 16 or 10, or in base 60 with colons. -/
def isNatural (t : Text) : Bool :=
  match t with
  | '0' :: 'b' :: digits => isDigits 2 digits
  | '0' :: 'x' :: digits => isDigits 16 digits
  | ['0'] => true
  | '0' :: digits => isDigits 8 digits
  | _ =>
    match t.splitOn ':' with
    | first :: more => isWhole first && more.all isSixtieth
    | [] => false

/-- Whether a text is an integer, with a sign or without. -/
def isInteger (t : Text) : Bool :=
  isNatural (Numeral.sign t).2

/-- Whether a text is empty or an exponent with its sign. -/
def isExponent : Text → Bool
  | [] => true
  | e :: sign :: digits =>
    (e == 'e' || e == 'E') && (sign == '+' || sign == '-') && !digits.isEmpty &&
      digits.all Char.isDigit
  | _ => false

def isFractionChar (c : Char) : Bool :=
  c.isDigit || c == '_'

/-- Whether a text is a decimal with a point. Only without a sign may it begin with the point. -/
def isDecimal (signed : Bool) (t : Text) : Bool :=
  let (whole, rest) := t.span isFractionChar
  match rest with
  | '.' :: after =>
    let (fraction, exponent) := after.span isFractionChar
    isExponent exponent &&
      if whole.isEmpty then !signed && fraction.head?.any Char.isDigit
      else whole.head?.any Char.isDigit
  | _ => false

/-- Whether a text is sixtieths between colons with a point after the last one. -/
def isSixtieths (t : Text) : Bool :=
  match (t.splitOn ':').reverse with
  | last :: before@(_ :: _) =>
    let (seconds, rest) := last.span Char.isDigit
    match rest, before.reverse with
    | '.' :: fraction, first :: middle =>
      isSixtieth seconds && fraction.all isFractionChar && isWhole first && middle.all isSixtieth
    | _, _ => false
  | _ => false

/-- Whether a text is a floating point number, with a sign or without. -/
def isFloat (t : Text) : Bool :=
  let body := (Numeral.sign t).2
  oneOf [".inf", ".Inf", ".INF"] body || oneOf [".nan", ".NaN", ".NAN"] t ||
    isDecimal (body != t) body || isSixtieths body

/-- Whether a text is digits of a length between two bounds. -/
def isField (atLeast atMost : Nat) (t : Text) : Bool :=
  atLeast ≤ t.length && t.length ≤ atMost && t.all Char.isDigit

def three? (mark : Char) (t : Text) : Option (Text × Text × Text) :=
  match t.splitOn mark with
  | [a, b, c] => some (a, b, c)
  | _ => none

def number (t : Text) : Nat :=
  Numeral.ofDigits (t.map fun c => c.toNat - 48)

/-- A distance from universal time, in minutes. -/
def zone? : Text → Option Int
  | ['Z'] => some 0
  | sign :: clock =>
    if sign ≠ '+' ∧ sign ≠ '-' then none
    else
      let parts := match clock.splitOn ':' with
        | [h] => if isField 1 2 h then some (number h, 0) else none
        | [h, m] => if isField 1 2 h && isField 2 2 m then some (number h, number m) else none
        | _ => none
      parts.map fun (h, m) => if sign = '-' then -((h * 60 + m : Nat) : Int) else (h * 60 + m : Nat)
  | [] => none

/-- The parts of a time of day, the fraction as its digits, with the distance from universal time
where it is written. -/
structure ClockParts where
  hour : Nat
  minute : Nat
  second : Nat
  fraction : Text
  zone : Option Int

def isSpace (c : Char) : Bool :=
  c == ' ' || c == '\t'

def clock? (t : Text) : Option ClockParts :=
  let (time, rest) := t.span fun c => c.isDigit || c == ':'
  (three? ':' time).bind fun (h, m, s) =>
    if !(isField 1 2 h && isField 2 2 m && isField 2 2 s) then none
    else
      let (fraction, after) := match rest with
        | '.' :: more => more.span Char.isDigit
        | more => ([], more)
      if after.isEmpty then some ⟨number h, number m, number s, fraction, none⟩
      else (zone? (after.dropWhile isSpace)).map fun z =>
        ⟨number h, number m, number s, fraction, some z⟩

/-- The parts of a date with or without a time of day. `wide` says that month and day have two
digits each. -/
structure DateParts where
  year : Nat
  month : Nat
  day : Nat
  wide : Bool
  clock : Option ClockParts

def date? (t : Text) : Option DateParts :=
  let (date, rest) := t.span fun c => c.isDigit || c == '-'
  (three? '-' date).bind fun (y, m, d) =>
    if !(isField 4 4 y && isField 1 2 m && isField 1 2 d) then none
    else
      let parts (clock : Option ClockParts) : DateParts :=
        ⟨number y, number m, number d, m.length == 2 && d.length == 2, clock⟩
      match rest with
      | [] => some (parts none)
      | c :: more =>
        if c == 'T' || c == 't' then (clock? more).map fun clock => parts (some clock)
        else if isSpace c then
          (clock? (more.dropWhile isSpace)).map fun clock => parts (some clock)
        else none

/-- Whether a text is a date or an instant. -/
def isTimestamp (t : Text) : Bool :=
  (date? t).any fun parts => parts.wide || parts.clock.isSome

def unbroken (t : Text) : Text :=
  if t.getLast? = some '\n' then t.dropLast else t

def tag (t : Text) : Tag :=
  let body := unbroken t
  if body.isEmpty then (if t.isEmpty then .null else .text)
  else if isBool body then .bool
  else if isFloat body then .float
  else if isInteger body then .integer
  else if body = "<<".toList then .merge
  else if isNull body then .null
  else if isTimestamp body then .timestamp
  else if body = ['='] then .default
  else .text

end ChatCommands.Yaml.Plain
