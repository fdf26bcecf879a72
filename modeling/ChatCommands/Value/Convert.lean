import ChatCommands.Crash
import ChatCommands.Value.Scalar

/-!
Scalars as numbers, where a number is needed.
-/

namespace ChatCommands.Scalar

/-- The integer that a scalar stands for: a float loses its fraction, a text is a numeral. -/
def toInteger : Scalar → Except Crash Int
  | .int n => .ok n
  | .bool b => .ok (if b then 1 else 0)
  | .float (.infinite _) => .error .infiniteInteger
  | .float .nan => .error .nanInteger
  | .float x => .ok (x.truncate?.getD 0)
  | .text t =>
    match Numeral.readInt t with
    | some n => .ok n
    | none => .error .notANumeral
  | .null => .error .wrongKind

/-- The floating point number nearest to an integer, which must not be too large. -/
def nearest (n : Int) : Except Crash Binary64 :=
  match Binary64.ofInt n with
  | .infinite _ => .error .integerTooLarge
  | x => .ok x

def toFloat : Scalar → Except Crash Binary64
  | .int n => nearest n
  | .bool b => nearest (if b then 1 else 0)
  | .float x => .ok x
  | .text t =>
    match Numeral.readFloat t with
    | some x => .ok x
    | none => .error .notANumeral
  | .null => .error .wrongKind

end ChatCommands.Scalar
