import ChatCommands.Template.Error
import ChatCommands.Value.Basic

/-!
The errors that stop the resolution of a template, and their wording.

Every error has a text for the log and one for the channel. They differ only for structure errors,
which name a position in the log, and for the step limit, which shows the state there.
-/

namespace ChatCommands

/-- An instruction was given arguments that it cannot use. -/
inductive InstructionError where
  | tooDeep (limit : Nat)
  | missingRequirement (keyword : Text)
  | setWithoutArguments
  | setWithoutValue (instruction : Text)
  | invalidName (name : Text)
  | randomWithoutBounds
  | notWhole (bound instruction : Text)
  | requestsDisabled
  | requestWithoutUrl
  | notHttp (url : Text)
  | malformedBody (url reason : Text)
  | noTransport
  | tooManyStickers (limit : Nat)
deriving DecidableEq

/-- A gate turned the author away. -/
inductive Denial where
  | notModerator
  | moderator
  | outsideChannel (id : Scalar)
  | insideChannel (id : Scalar)
  | withoutRole
  | withRole
deriving DecidableEq

/-- The server lacks something that the template names. -/
inductive Absence where
  | channel (name : Text)
  | role (name : Text)
  | sticker (key : Text)
deriving DecidableEq

/-- A web request gave no JSON. There is no status where there was no response. -/
structure RequestFailure where
  url : Text
  status : Option Int
  reason : Text
deriving DecidableEq

/-- More instructions were executed than are allowed; with the state at that moment. -/
structure LimitReached where
  limit : Int
  buffer : Text
  bindings : List (Text × Value)
  instruction : Text

inductive TemplateError where
  | parse (e : ParseError)
  | instruction (e : InstructionError)
  | denied (e : Denial)
  | absent (e : Absence)
  | request (e : RequestFailure)
  | limit (e : LimitReached)

namespace InstructionError

def message : InstructionError → Text
  | .tooDeep limit =>
    "Instructions are nested more than ".toList ++ Text.ofNat limit ++ " levels deep.".toList
  | .missingRequirement keyword =>
    '\x7b' :: keyword ++ "\x7d needs a role, #channel or serverMod.".toList
  | .setWithoutArguments =>
    "\x7bset\x7d needs a variable name and a value, e.g. \x7bset;name=value\x7d.".toList
  | .setWithoutValue instruction =>
    instruction ++
      " is missing a value; use \x7bset;name=value\x7d or \x7bset;name;value\x7d.".toList
  | .invalidName name => '\x27' :: name ++ "' is not a valid variable name.".toList
  | .randomWithoutBounds =>
    "\x7brandom\x7d needs a minimum and a maximum, e.g. \x7brandom;1;6\x7d.".toList
  | .notWhole bound instruction =>
    '\x27' :: bound ++ "' in ".toList ++ instruction ++ " is not a whole number.".toList
  | .requestsDisabled => "Web requests are disabled on this bot.".toList
  | .requestWithoutUrl =>
    ("\x7bwebrequest\x7d needs a variable name and a URL, " ++
      "e.g. \x7bwebrequest;data;https://...\x7d.").toList
  | .notHttp url => '\x27' :: url ++ "' is not an http(s) URL.".toList
  | .malformedBody url reason =>
    "The request body for ".toList ++ url ++ " is not valid JSON: ".toList ++ reason
  | .noTransport => "No HTTP client is configured for web requests.".toList
  | .tooManyStickers limit =>
    "A message can carry at most ".toList ++ Text.ofNat limit ++ " stickers.".toList

end InstructionError

namespace Denial

def mention (id : Scalar) : Text :=
  "<#".toList ++ id.display ++ ">.".toList

def message : Denial → Text
  | .notModerator => "You do not have permission to use this command.".toList
  | .moderator => "Server moderators cannot use this command.".toList
  | .outsideChannel id => "This custom command can only be used in ".toList ++ mention id
  | .insideChannel id => "This custom command cannot be used in ".toList ++ mention id
  | .withoutRole => "You do not have the required role to use this command.".toList
  | .withRole => "You have a role that is not allowed to use this command.".toList

end Denial

namespace Absence

def advice : Text :=
  " Please contact a server administrator to fix this.".toList

def message : Absence → Text
  | .channel name =>
    "The required channel for this custom command ('#".toList ++ name ++
      "') was not found.".toList ++ advice
  | .role name =>
    "The required role for this custom command ('".toList ++ name ++
      "') was not found.".toList ++ advice
  | .sticker key =>
    "The sticker '".toList ++ key ++ "' was not found on this server.".toList ++ advice

end Absence

namespace RequestFailure

def message (e : RequestFailure) : Text :=
  let start := "Failed to fetch data from ".toList ++ e.url ++ ": ".toList
  match e.status with
  | none => start ++ e.reason
  | some status => Text.stripEnd (start ++ Text.ofInt status ++ ' ' :: e.reason)

end RequestFailure

namespace LimitReached

def shownLength : Nat := 200

def names (e : LimitReached) : List Text :=
  (e.bindings.map Prod.fst).mergeSort fun a b => !Text.before b a

def message (e : LimitReached) : Text :=
  "Resolution limit of ".toList ++ Text.ofInt e.limit ++
    " steps exceeded (last instruction ".toList ++ Text.quoted e.instruction ++
    ", variables [".toList ++ Text.join ", ".toList (e.names.map Text.quoted) ++
    "], remaining buffer ".toList ++ Text.quoted (e.buffer.take shownLength) ++ [')']

def userMessage (e : LimitReached) : Text :=
  "This custom command needed more than ".toList ++ Text.ofInt e.limit ++
    " steps to resolve.".toList

end LimitReached

namespace TemplateError

def message : TemplateError → Text
  | .parse e => e.message
  | .instruction e => e.message
  | .denied e => e.message
  | .absent e => e.message
  | .request e => e.message
  | .limit e => e.message

def userMessage : TemplateError → Text
  | .parse e => e.userMessage
  | .limit e => e.userMessage
  | e => e.message

end TemplateError

/-- Why a resolution stopped: an error of the template, or a crash. -/
inductive Fault where
  | template (e : TemplateError)
  | crash (c : Crash)

end ChatCommands
