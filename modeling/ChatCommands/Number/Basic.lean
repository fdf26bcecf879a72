import ChatCommands.Number.Numeral

/-!
Numbers of either kind, integers without bound and floating point numbers, and their exact order.
-/

namespace ChatCommands

inductive Number where
  | int (n : Int)
  | float (x : Binary64)
deriving DecidableEq

/-- A point of the extended line: an end of it, or `m · 2 ^ e`. -/
inductive Point where
  | bottom
  | dyadic (m : Int) (e : Int)
  | top
deriving DecidableEq

namespace Point

/-- Two finite points are compared after writing both with the smaller exponent. -/
def compare : Point → Point → Ordering
  | .bottom, .bottom | .top, .top => .eq
  | .bottom, _ | _, .top => .lt
  | _, .bottom | .top, _ => .gt
  | .dyadic m e, .dyadic n f =>
    let low := if e ≤ f then e else f
    Ord.compare (m * Binary64.twoTo (e - low).toNat) (n * Binary64.twoTo (f - low).toNat)

end Point

namespace Number

/-- The place of a number on the line; a NaN has none. -/
def point? : Number → Option Point
  | .int n => some (.dyadic n 0)
  | .float (.finite negative mantissa exponent) =>
    some (.dyadic (Binary64.signed negative mantissa) exponent)
  | .float (.infinite negative) => some (if negative then .bottom else .top)
  | .float .nan => none

/-- The order of two numbers, by their exact values. -/
def compare? (a b : Number) : Option Ordering :=
  match a.point?, b.point? with
  | some p, some q => some (p.compare q)
  | _, _ => none

def same (a b : Number) : Bool :=
  a.compare? b == some .eq

end Number

end ChatCommands
