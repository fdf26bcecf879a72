import ChatCommands.Number.Binary64
import ChatCommands.Text.Blank
import ChatCommands.Text.Digit

/-!
Reading numerals.

White space around a numeral is ignored, digits of every script count, and one underscore may
stand between two digits. An integer in base ten has at most 4300 digits; a fraction, and an integer
in a base that is a power of two, may have any number.
-/

namespace ChatCommands.Numeral

def maxDigits : Nat := 4300

/-- The digits at the start of a text, and what follows. `inside` says that a digit precedes. -/
def digitRun (inside : Bool) : Text → List Nat × Text
  | [] => ([], [])
  | '_' :: c :: rest =>
    match inside, Text.digitValue c with
    | true, some d =>
      let (digits, after) := digitRun true rest
      (d :: digits, after)
    | _, _ => ([], '_' :: c :: rest)
  | c :: rest =>
    match Text.digitValue c with
    | some d =>
      let (digits, after) := digitRun true rest
      (d :: digits, after)
    | none => ([], c :: rest)

def ofDigits (digits : List Nat) : Nat :=
  digits.foldl (fun n d => 10 * n + d) 0

/-- The sign in front of a numeral: whether it is a minus, and what follows. -/
def sign : Text → Bool × Text
  | '-' :: rest => (true, rest)
  | '+' :: rest => (false, rest)
  | t => (false, t)

/-- White space as it may surround a numeral: the separators among the controls do not count. -/
def isMargin (c : Char) : Bool :=
  Text.isBlank c && !(0x1c ≤ c.toNat && c.toNat ≤ 0x1f)

def trim (t : Text) : Text :=
  ((t.dropWhile isMargin).reverse.dropWhile isMargin).reverse

def readInt (t : Text) : Option Int :=
  let (negative, body) := sign (trim t)
  match digitRun false body with
  | ([], _) => none
  | (digits, []) =>
    if digits.length ≤ maxDigits then
      some (if negative then -(ofDigits digits : Int) else ofDigits digits)
    else none
  | _ => none

/-- The value of a digit in base two, eight or sixteen: a digit of any script, or a letter. -/
def letterDigit? (c : Char) : Option Nat :=
  (Text.digitValue c).orElse fun _ =>
    if 'a' ≤ c ∧ c ≤ 'f' then some (c.toNat - 87)
    else if 'A' ≤ c ∧ c ≤ 'F' then some (c.toNat - 55)
    else none

/-- The number that digits of a base write, of which there must be one at least. -/
def readDigits (base : Nat) (t : Text) : Option Nat :=
  if t.isEmpty then none
  else
    t.foldl (fun n c => n.bind fun k =>
      (letterDigit? c).bind fun d => if d < base then some (base * k + d) else none) (some 0)

/-- The integer that a text without underscores writes in base two, eight or sixteen. A zero and the
letter of the base may stand in front of the digits. -/
def readBased (base : Nat) (letter : Char) (t : Text) : Option Int :=
  let (negative, body) := sign (trim t)
  let digits := match body with
    | '0' :: c :: rest => if c.toLower = letter then rest else body
    | _ => body
  (readDigits base digits).map fun n => if negative then -(n : Int) else n

/-- The exponent after the digits: nothing, or a mark, a sign and digits. -/
def readExponent : Text → Option Int
  | [] => some 0
  | c :: rest =>
    if c = 'e' ∨ c = 'E' then
      let (negative, body) := sign rest
      match digitRun false body with
      | ([], _) => none
      | (digits, []) => some (if negative then -(ofDigits digits : Int) else ofDigits digits)
      | _ => none
    else none

/-- The letters of A to Z in lower case, other characters as they are. -/
def asciiLower (t : Text) : Text :=
  t.map Char.toLower

/-- The value of digits with a decimal point and an exponent. -/
def readDecimal (negative : Bool) (body : Text) : Option Binary64 :=
  let (whole, afterWhole) := digitRun false body
  let (fraction, afterFraction) :=
    match afterWhole with
    | '.' :: rest => digitRun false rest
    | rest => ([], rest)
  if whole.isEmpty && fraction.isEmpty then none
  else (readExponent afterFraction).map fun exponent =>
    Binary64.ofDecimal negative (ofDigits (whole ++ fraction)) (exponent - fraction.length)

def readFloat (t : Text) : Option Binary64 :=
  let (negative, body) := sign (trim t)
  let word := asciiLower body
  if word = "inf".toList ∨ word = "infinity".toList then some (.infinite negative)
  else if word = "nan".toList then some .nan
  else readDecimal negative body

end ChatCommands.Numeral
