import ChatCommands.Number.Binary64

/-!
The decimal text of a floating point number: the fewest digits that read back as the same number,
and of those the nearest.

Below `10 ^ 16` and from `10 ^ -4` on the text is positional, with `.0` after a whole number;
elsewhere it has an exponent of at least two digits.
-/

namespace ChatCommands.Binary64

/-- A decimal `digits · 10 ^ power`. -/
structure Decimal where
  digits : Nat
  power : Int
deriving DecidableEq

/-- The value `mantissa · 2 ^ exponent` as a quotient. -/
def ratio (mantissa : Nat) (exponent : Int) : Nat × Nat :=
  if 0 ≤ exponent then (mantissa * twoTo exponent.toNat, 1) else (mantissa, twoTo (-exponent).toNat)

/-- The value `n · 10 ^ power` as a quotient. -/
def decimalRatio (n : Nat) (power : Int) : Nat × Nat :=
  if 0 ≤ power then (n * tenTo power.toNat, 1) else (n, tenTo (-power).toNat)

/-- Whether the first quotient is less than the second. -/
def ratioLess (a b : Nat × Nat) : Bool :=
  a.1 * b.2 < b.1 * a.2

/-- The least `k` with `value < 10 ^ k`, found near the estimate that the bit lengths give. -/
def decimalPoint (value : Nat × Nat) : Int :=
  let bits : Int := (value.1.log2 : Int) - value.2.log2
  let estimate := Int.fdiv (bits * 30103) 100000
  (([-1, 0, 1, 2].map (estimate + ·)).find? fun k => ratioLess value (decimalRatio 1 k)).getD
    (estimate + 3)

/-- Whether twice the value is nearer to the grid point below, `low`, than to the one above. -/
def nearerBelow (value : Nat × Nat) (low : Nat) (power : Int) : Bool :=
  let middle := decimalRatio (2 * low + 1) power
  2 * value.1 * middle.2 < middle.1 * value.2 ||
    (2 * value.1 * middle.2 == middle.1 * value.2 && low % 2 == 0)

/-- The decimal with `count` digits that reads back as the number, if there is one; of two the
nearer. -/
def withDigits (mantissa : Nat) (exponent : Int) (count : Nat) : Option Decimal :=
  let value := ratio mantissa exponent
  let power := decimalPoint value - count
  let unit := decimalRatio 1 power
  let low := value.1 * unit.2 / (value.2 * unit.1)
  let readsBack := fun n => ofDecimal false n power == finite false mantissa exponent
  match readsBack low, readsBack (low + 1) with
  | true, true => some ⟨if nearerBelow value low power then low else low + 1, power⟩
  | true, false => some ⟨low, power⟩
  | false, true => some ⟨low + 1, power⟩
  | false, false => none

/-- The shortest decimal of a positive number: seventeen digits always suffice. -/
def shortest (mantissa : Nat) (exponent : Int) : Decimal :=
  ((List.range 17).findSome? fun n => withDigits mantissa exponent (n + 1)).getD ⟨0, 0⟩

def trimZeros (digits : Text) : Text :=
  (digits.reverse.dropWhile (· = '0')).reverse

/-- The text of digits with the decimal point `point` places to the right of their start. -/
def layout (digits : Text) (point : Int) : Text :=
  if -4 < point ∧ point ≤ 16 then
    if point ≤ 0 then "0.".toList ++ List.replicate (-point).toNat '0' ++ digits
    else if digits.length ≤ point.toNat then
      digits ++ List.replicate (point.toNat - digits.length) '0' ++ ".0".toList
    else digits.take point.toNat ++ '.' :: digits.drop point.toNat
  else
    let exponent := point - 1
    let sign := if exponent < 0 then '-' else '+'
    let fraction := digits.drop 1
    digits.take 1 ++ (if fraction.isEmpty then [] else '.' :: fraction) ++
      'e' :: sign :: Text.padded 2 exponent.natAbs

/-- The text of a number, which reads back as that number. -/
def text : Binary64 → Text
  | nan => "nan".toList
  | infinite negative => if negative then "-inf".toList else "inf".toList
  | finite negative mantissa exponent =>
    let sign : Text := if negative then ['-'] else []
    if mantissa = 0 then sign ++ "0.0".toList
    else
      let decimal := shortest mantissa exponent
      let digits := Text.ofNat decimal.digits
      sign ++ layout (trimZeros digits) (decimal.power + digits.length)

end ChatCommands.Binary64
