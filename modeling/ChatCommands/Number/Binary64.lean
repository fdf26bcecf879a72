import ChatCommands.Text.Basic

/-!
Binary floating point numbers of 64 bits, as exact dyadic values.

A finite number is `± mantissa · 2 ^ exponent`. Everything here is integer arithmetic: rounding a
quotient or a decimal to the nearest number, and the integer part. The results of rounding are
in normal form, so that two of them are equal exactly when they are the same number with the same
sign.
-/

namespace ChatCommands

inductive Binary64 where
  | finite (negative : Bool) (mantissa : Nat) (exponent : Int)
  | infinite (negative : Bool)
  | nan
deriving DecidableEq, Inhabited

namespace Binary64

def twoTo (n : Nat) : Nat :=
  Nat.pow 2 n

def tenTo (n : Nat) : Nat :=
  Nat.pow 10 n

def minExponent : Int := -1074

/-- The largest exponent of a finite number in normal form. -/
def maxExponent : Int := 971

def mantissaBits : Nat := 53

/-- The quotient rounded to the nearest integer, a half going to the even one. -/
def roundDiv (num den : Nat) : Nat :=
  let quotient := num / den
  let rest := num % den
  if 2 * rest < den then quotient
  else if den < 2 * rest then quotient + 1
  else if quotient % 2 = 0 then quotient
  else quotient + 1

/-- The number with this mantissa and exponent, or infinity where the exponent is too large. -/
def bounded (negative : Bool) (mantissa : Nat) (exponent : Int) : Binary64 :=
  if maxExponent < exponent then infinite negative else finite negative mantissa exponent

def zero (negative : Bool) : Binary64 :=
  finite negative 0 minExponent

/-- The number nearest to `± num / den`, a tie going to the even mantissa. -/
def ofRatio (negative : Bool) (num den : Nat) : Binary64 :=
  if num = 0 then zero negative
  else
    let scale : Int := (num.log2 : Int) - den.log2
    let reached : Bool :=
      if 0 ≤ scale then den * twoTo scale.toNat ≤ num else den ≤ num * twoTo (-scale).toNat
    let exact := if reached then scale - 52 else scale - 53
    let exponent := if exact < minExponent then minExponent else exact
    let mantissa :=
      if 0 ≤ exponent then roundDiv num (den * twoTo exponent.toNat)
      else roundDiv (num * twoTo (-exponent).toNat) den
    if mantissa = twoTo mantissaBits then bounded negative (twoTo (mantissaBits - 1)) (exponent + 1)
    else bounded negative mantissa exponent

/-- The number nearest to `± digits · 10 ^ power`. Far outside the range the answer is known
without writing the power out. -/
def ofDecimal (negative : Bool) (digits : Nat) (power : Int) : Binary64 :=
  if digits = 0 then zero negative
  else if 400 < power then infinite negative
  else if power + digits.log2 < -400 then zero negative
  else if 0 ≤ power then ofRatio negative (digits * tenTo power.toNat) 1
  else ofRatio negative digits (tenTo (-power).toNat)

def ofInt (n : Int) : Binary64 :=
  ofRatio (n < 0) n.natAbs 1

def neg : Binary64 → Binary64
  | finite negative mantissa exponent => finite (!negative) mantissa exponent
  | infinite negative => infinite (!negative)
  | nan => nan

def signed (negative : Bool) (mantissa : Nat) : Int :=
  if negative then -mantissa else mantissa

/-- The sum of two finite numbers rounded to the nearest; an infinite one decides otherwise. -/
def add : Binary64 → Binary64 → Binary64
  | nan, _ | _, nan => nan
  | infinite a, infinite b => if a = b then infinite a else nan
  | infinite a, _ | _, infinite a => infinite a
  | finite s m e, finite t n f =>
    let low := if e ≤ f then e else f
    let sum := signed s m * twoTo (e - low).toNat + signed t n * twoTo (f - low).toNat
    if sum = 0 then zero (s && t)
    else if 0 ≤ low then ofRatio (sum < 0) (sum.natAbs * twoTo low.toNat) 1
    else ofRatio (sum < 0) sum.natAbs (twoTo (-low).toNat)

/-- The product of two numbers rounded to the nearest. Zero times infinity is none. -/
def mul : Binary64 → Binary64 → Binary64
  | nan, _ | _, nan => nan
  | infinite s, infinite t => infinite (s != t)
  | infinite s, finite t m _ | finite t m _, infinite s => if m = 0 then nan else infinite (s != t)
  | finite s m e, finite t n f =>
    if 0 ≤ e + f then ofRatio (s != t) (m * n * twoTo (e + f).toNat) 1
    else ofRatio (s != t) (m * n) (twoTo (-(e + f)).toNat)

def sub (x y : Binary64) : Binary64 :=
  add x y.neg

/-- The integer part, toward zero, of a finite number. -/
def truncate? : Binary64 → Option Int
  | finite negative mantissa exponent =>
    if 0 ≤ exponent then some (signed negative (mantissa * twoTo exponent.toNat))
    else some (signed negative (mantissa / twoTo (-exponent).toNat))
  | _ => none

/-- Whether the number is finite and has no fraction. -/
def isInteger : Binary64 → Bool
  | finite _ mantissa exponent => 0 ≤ exponent || mantissa % twoTo (-exponent).toNat == 0
  | _ => false

def isZero : Binary64 → Bool
  | finite _ mantissa _ => mantissa == 0
  | _ => false

theorem neg_neg (x : Binary64) : x.neg.neg = x := by
  cases x <;> simp [neg]

theorem roundDiv_exact (n : Nat) {den : Nat} (h : 0 < den) : roundDiv (n * den) den = n := by
  simp [roundDiv, Nat.mul_div_cancel n h, h]

end Binary64

end ChatCommands
