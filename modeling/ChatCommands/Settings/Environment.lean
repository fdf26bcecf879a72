import ChatCommands.Number.Numeral
import ChatCommands.Text.Case
import ChatCommands.Warning

/-!
Settings in the variables of the environment.

A variable that is not set leaves the fallback. One that is set but malformed leaves it too, with a
warning.
-/

namespace ChatCommands

/-- A computation that collects warnings on its way. -/
structure Noted (α : Type) where
  value : α
  warnings : List Warning
deriving DecidableEq

namespace Noted

instance : Monad Noted where
  pure a := ⟨a, []⟩
  bind x f := ⟨(f x.value).value, x.warnings ++ (f x.value).warnings⟩

/-- A fallback, and why it is used. -/
def warn (w : Warning) (fallback : α) : Noted α :=
  ⟨fallback, [w]⟩

end Noted

abbrev Environment := List (Text × Text)

namespace Environment

def truthOf? (t : Text) : Option Bool :=
  let word := Text.lower (Text.strip t)
  if ["1", "true", "yes", "on"].any fun w => w.toList = word then some true
  else if ["0", "false", "no", "off"].any fun w => w.toList = word then some false
  else none

def get? (env : Environment) (name : Text) : Option Text :=
  env.lookup name

/-- The value of a variable as `read` takes it, or the fallback. -/
def readAs (read : Text → Option α) (w : Warning) (env : Environment) (name : Text)
    (fallback : α) : Noted α :=
  match env.get? name with
  | none => pure fallback
  | some raw =>
    match read raw with
    | some a => pure a
    | none => .warn w fallback

def integer : Environment → Text → Int → Noted Int :=
  readAs Numeral.readInt .invalidInteger

def float : Environment → Text → Binary64 → Noted Binary64 :=
  readAs Numeral.readFloat .invalidFloat

def bool : Environment → Text → Bool → Noted Bool :=
  readAs truthOf? .invalidBoolean

/-- The value of a variable without the white space around it, unless nothing is left. -/
def trimmed? (env : Environment) (name : Text) : Option Text :=
  (env.get? name).bind fun raw =>
    let value := Text.strip raw
    if value.isEmpty then none else some value

end Environment

end ChatCommands
