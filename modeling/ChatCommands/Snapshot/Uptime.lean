import ChatCommands.Crash
import ChatCommands.Number.Binary64

/-!
The text of a duration in days, hours, minutes and seconds.
-/

namespace ChatCommands.Uptime

def ofSeconds (total : Nat) : Text :=
  Text.ofNat (total / 86400) ++ "d ".toList ++ Text.ofNat (total / 3600 % 24) ++ "h ".toList ++
    Text.ofNat (total / 60 % 60) ++ "m ".toList ++ Text.ofNat (total % 60) ++ "s".toList

/-- The integer part of a number, which an infinite number and a NaN lack. -/
def wholeSeconds : Binary64 → Except Crash Int
  | .infinite _ => .error .infiniteInteger
  | .nan => .error .nanInteger
  | x => .ok (x.truncate?.getD 0)

/-- The text of a duration; fractions are dropped and a negative one counts as none. -/
def text (seconds : Binary64) : Except Crash Text :=
  (wholeSeconds seconds).map fun n => ofSeconds n.toNat

end ChatCommands.Uptime
