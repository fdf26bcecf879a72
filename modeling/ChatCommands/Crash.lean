/-!
Failures that no error of the template language reports.

Each is a cause that arises in one operation on data from outside: an integer with too many
digits, an infinite duration, an attribute that an object of the gateway lacks.
-/

namespace ChatCommands

inductive Crash where
  /-- An integer numeral has more digits than are read. -/
  | tooManyDigits
  /-- A text is no numeral where one is needed. -/
  | notANumeral
  /-- The integer part of an infinite number was asked for. -/
  | infiniteInteger
  /-- An integer is larger than every floating point number. -/
  | integerTooLarge
  /-- The integer part of a NaN was asked for. -/
  | nanInteger
  /-- The host part of a URL is malformed. -/
  | malformedUrl
  /-- A text is no date and time. -/
  | malformedInstant
  /-- An object lacks an attribute, or a value has none of the kind that was asked for. -/
  | missingAttribute
  /-- A mapping lacks a key. -/
  | missingKey
  /-- A value is of a kind that the operation does not take. -/
  | wrongKind
  /-- A division by zero. -/
  | divisionByZero
  /-- A command was run outside a server. -/
  | noServer
  /-- A document is not valid JSON. -/
  | malformedJson
  /-- A setting that must be there is not. -/
  | missingToken
  /-- The home directory of a user is not known. -/
  | unknownHome
  /-- The first character of an empty text was asked for. -/
  | emptyText
  /-- The number of a character is beyond every machine word. -/
  | characterTooLarge
deriving DecidableEq

/-- Whether a failure goes beyond the place where malformed data is left out with a warning. -/
def Crash.escapes : Crash → Bool
  | .infiniteInteger | .integerTooLarge | .characterTooLarge | .unknownHome | .emptyText => true
  | _ => false

def Crash.message? : Crash → Option String
  | .noServer => some "Custom commands can only run inside a server."
  | .missingToken => some "Missing DISCORD_TOKEN. Set it in your environment or .env file."
  | _ => none

end ChatCommands
