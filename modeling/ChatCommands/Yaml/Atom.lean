import ChatCommands.Instant.Basic
import ChatCommands.Value.Convert
import ChatCommands.Yaml.Plain

/-!
The values of scalars: what the text of a scalar means, given its kind.

A tag can give any text to any kind, so most readers take more than the form that shows the kind of
a plain scalar, and each fails in its own way.
-/

namespace ChatCommands.Yaml

/-- The value of a scalar. -/
inductive Atom where
  | scalar (s : Scalar)
  | date (year month day : Nat)
  | instant (i : Instant)
  | bytes (bs : List Nat)
deriving DecidableEq

namespace Atom

/-- A sign in front, as it is written once, and the text after it. -/
def signed (t : Text) : Bool × Text :=
  Numeral.sign t

/-- Numerals between colons, the last one first. -/
def parts (read : Text → Option α) (t : Text) : Except Crash (List α) :=
  match (t.splitOn ':').mapM read with
  | some values => .ok values.reverse
  | none => .error .notANumeral

def numeral (r : Option α) : Except Crash α :=
  match r with
  | some a => .ok a
  | none => .error .notANumeral

/-- The integer without its first sign. The start of the text names the base: two, sixteen or eight;
colons stand for base sixty. -/
def unsignedInteger (t : Text) : Except Crash Int :=
  match t with
  | [] => .error .emptyText
  | ['0'] => .ok 0
  | '0' :: 'b' :: digits => numeral (Numeral.readBased 2 'b' digits)
  | '0' :: 'x' :: digits => numeral (Numeral.readBased 16 'x' digits)
  | '0' :: _ => numeral (Numeral.readBased 8 'o' t)
  | _ =>
    if ':' ∈ t then
      (parts Numeral.readInt t).map fun digits => digits.foldr (fun d total => 60 * total + d) 0
    else numeral (Numeral.readInt t)

/-- The integer that a text writes, underscores left out. -/
def integer (t : Text) : Except Crash Int :=
  match t.filter (· != '_') with
  | [] => .error .emptyText
  | digits =>
    let (negative, body) := signed digits
    (unsignedInteger body).map fun n => if negative then -n else n

/-- The sum of numbers, each worth sixty times the one before. -/
def sumSixtieths (total : Binary64) (worth : Int) : List Binary64 → Except Crash Binary64
  | [] => .ok total
  | x :: rest => do
    sumSixtieths (total.add (x.mul (← Scalar.nearest worth))) (worth * 60) rest

def unsignedFloat (t : Text) : Except Crash Binary64 :=
  if t = ".inf".toList then .ok (.infinite false)
  else if t = ".nan".toList then .ok .nan
  else if ':' ∈ t then do sumSixtieths (.zero false) 1 (← parts Numeral.readFloat t)
  else numeral (Numeral.readFloat t)

/-- The floating point number that a text writes, underscores left out, in any case. -/
def float (t : Text) : Except Crash Binary64 :=
  match Text.lower (t.filter (· != '_')) with
  | [] => .error .emptyText
  | digits =>
    let (negative, body) := signed digits
    (unsignedFloat body).map fun x => if negative then x.neg else x

/-- The truth value of a word, in any case. -/
def bool (t : Text) : Except Crash Bool :=
  let word := Text.lower t
  if Plain.oneOf ["yes", "true", "on"] word then .ok true
  else if Plain.oneOf ["no", "false", "off"] word then .ok false
  else .error .missingKey

/-- The microseconds of a fraction: its first six digits. -/
def microseconds (fraction : Text) : Nat :=
  Plain.number ((fraction ++ List.replicate 6 '0').take 6)

def timestamp (t : Text) : Except Crash Atom :=
  match Plain.date? (Plain.unbroken t) with
  | none => .error .missingAttribute
  | some d =>
    let instant : Instant :=
      match d.clock with
      | none => ⟨d.year, d.month, d.day, 0, 0, 0, 0, none⟩
      | some c =>
        ⟨d.year, d.month, d.day, c.hour, c.minute, c.second, microseconds c.fraction,
          c.zone.map (· * 60000000)⟩
    if !instant.isValid then .error .malformedInstant
    else .ok (if d.clock.isSome then .instant instant else .date d.year d.month d.day)

def sixBits? (c : Char) : Option Nat :=
  if 'A' ≤ c ∧ c ≤ 'Z' then some (c.toNat - 65)
  else if 'a' ≤ c ∧ c ≤ 'z' then some (c.toNat - 71)
  else if c.isDigit then some (c.toNat + 4)
  else if c = '+' then some 62
  else if c = '/' then some 63
  else none

/-- The bytes that groups of four characters encode; other characters do not count. `filled` is the
number of characters in the group, `pads` that of the signs that fill it up, and `left` are the bits
that are left of the last character. -/
def decodeBytes (filled pads left : Nat) : Text → Option (List Nat)
  | [] => if filled = 0 then some [] else none
  | c :: rest =>
    if c = '=' then
      if filled < 2 then decodeBytes filled pads left rest
      else if 4 ≤ filled + pads + 1 then some []
      else decodeBytes filled (pads + 1) left rest
    else
      match sixBits? c with
      | none => decodeBytes filled pads left rest
      | some d =>
        match filled with
        | 0 => decodeBytes 1 0 d rest
        | 1 => (decodeBytes 2 0 (d % 16) rest).map ((left * 4 + d / 16) :: ·)
        | 2 => (decodeBytes 3 0 (d % 4) rest).map ((left * 16 + d / 4) :: ·)
        | _ => (decodeBytes 0 0 0 rest).map ((left * 64 + d) :: ·)

def binary (t : Text) : Except ReadError Atom :=
  if t.all fun c => c.toNat < 128 then
    match decodeBytes 0 0 0 t with
    | some bs => .ok (.bytes bs)
    | none => .error .malformed
  else .error .malformed

/-- The value of a text, given its kind. Kinds that are not for scalars have none. -/
def ofText (tag : Tag) (t : Text) : Except ReadError Atom :=
  let known (r : Except Crash Atom) : Except ReadError Atom := r.mapError .crash
  match tag with
  | .null => .ok (.scalar .null)
  | .bool => known ((bool t).map fun b => .scalar (.bool b))
  | .integer => known ((integer t).map fun n => .scalar (.int n))
  | .float => known ((float t).map fun x => .scalar (.float x))
  | .binary => binary t
  | .timestamp => known (timestamp t)
  | .text => .ok (.scalar (.text t))
  | _ => .error .malformed

/-- Whether two keys are the same. -/
def same : Atom → Atom → Bool
  | .scalar s, .scalar t => s.sameInside t
  | a, b => a == b

def truth : Atom → Bool
  | .scalar s => s.truth
  | .bytes bs => !bs.isEmpty
  | _ => true

def quoteByte (mark : Char) (b : Nat) : Text :=
  let c := Char.ofNat b
  if c = mark ∨ c = '\\' then ['\\', c]
  else if c = '\t' then "\\t".toList
  else if c = '\n' then "\\n".toList
  else if c = '\r' then "\\r".toList
  else if 32 ≤ b ∧ b < 127 then [c]
  else "\\x".toList ++ Text.hex 2 b

/-- Bytes between quotation marks, with a letter in front. -/
def quotedBytes (bs : List Nat) : Text :=
  let mark := Text.quoteMark (bs.map Char.ofNat)
  'b' :: mark :: bs.flatMap (quoteByte mark) ++ [mark]

/-- The distance of a zone from universal time, in whole days and seconds of a day. -/
def zoneLiteral (micros : Int) : Text :=
  if micros = 0 then "datetime.timezone.utc".toList
  else
    let seconds := Int.fdiv micros 1000000
    "datetime.timezone(datetime.timedelta(".toList ++
      (if seconds < 0 then "days=-1, ".toList else []) ++ "seconds=".toList ++
      Text.ofInt (Int.fmod seconds 86400) ++ "))".toList

/-- The parts of an instant inside a shown container: the seconds where there are any, then the
microseconds, then the zone. -/
def instantLiteral (i : Instant) : Text :=
  let fine := if i.micro ≠ 0 then [i.second, i.micro] else if i.second ≠ 0 then [i.second] else []
  let numbers := [i.year, i.month, i.day, i.hour, i.minute] ++ fine
  let zone := i.offset.map fun micros => "tzinfo=".toList ++ zoneLiteral micros
  "datetime.datetime(".toList ++ Text.join ", ".toList (numbers.map Text.ofNat ++ zone.toList) ++
    [')']

/-- The text of an atom. The parts of an instant are set apart by a blank. -/
def display : Atom → Text
  | .scalar s => s.display
  | .date y m d => Text.padded 4 y ++ '-' :: Text.padded 2 m ++ '-' :: Text.padded 2 d
  | .instant i => i.text.map fun c => if c = 'T' then ' ' else c
  | .bytes bs => quotedBytes bs

def literal : Atom → Text
  | .scalar s => s.literal
  | .date y m d =>
    "datetime.date(".toList ++ Text.join ", ".toList ([y, m, d].map Text.ofNat) ++ [')']
  | .instant i => instantLiteral i
  | .bytes bs => quotedBytes bs

/-- The text of bytes that are read as a numeral, if all of them are characters. -/
def numeralOf (bs : List Nat) : Except Crash Scalar :=
  if bs.all (· < 128) then .ok (.text (bs.map Char.ofNat)) else .error .notANumeral

/-- The scalar that an atom is taken for where a number is needed. -/
def toScalar : Atom → Except Crash Scalar
  | .scalar s => .ok s
  | .bytes bs => numeralOf bs
  | _ => .error .wrongKind

/-- Whether an integer has too many digits to be shown. -/
def tooLong : Atom → Bool
  | .scalar (.int n) => Numeral.maxDigits < (Text.ofNat n.natAbs).length
  | _ => false

end Atom

end ChatCommands.Yaml
