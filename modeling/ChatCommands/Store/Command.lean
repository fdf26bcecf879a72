import ChatCommands.Instant.Read
import ChatCommands.Json.Read
import ChatCommands.Json.Write
import ChatCommands.Value.Convert

/-!
A custom command, and its form as a JSON object.

Reading converts: an id of any kind becomes text, a numeral becomes an integer, an empty date no
date. The name is kept in lower case.
-/

namespace ChatCommands

structure Command where
  id : Text
  server : Int
  name : Text
  response : Text
  createdBy : Option Int
  createdAt : Option Instant
  updatedAt : Option Instant
deriving DecidableEq

def Json.toInteger : Json → Except Crash Int
  | .scalar s => s.toInteger
  | _ => .error .wrongKind

namespace Command

def toJson (c : Command) : Json :=
  .object [
    ("id".toList, .text c.id), ("guild_id".toList, .int c.server), ("name".toList, .text c.name),
    ("response".toList, .text c.response),
    ("created_by".toList, (c.createdBy.map Json.int).getD .null),
    ("created_at".toList, (c.createdAt.map fun i => Json.text i.text).getD .null),
    ("updated_at".toList, (c.updatedAt.map fun i => Json.text i.text).getD .null)]

def required (name : String) (fields : List (Text × Json)) : Except Crash Json :=
  match Json.field? name.toList fields with
  | some j => .ok j
  | none => .error .missingKey

/-- A field, null where it is missing. -/
def optional (name : String) (fields : List (Text × Json)) : Json :=
  (Json.field? name.toList fields).getD .null

/-- The instant of a field, unless the field counts as false. -/
def instantOf (j : Json) : Except Crash (Option Instant) :=
  if !j.truth then .ok none
  else
    match Instant.read j.display with
    | some i => .ok (some i)
    | none => .error .malformedInstant

/-- The user id of a field, unless it is null. -/
def userOf : Json → Except Crash (Option Int)
  | .scalar .null => .ok none
  | j => j.toInteger.map some

def ofFields (fields : List (Text × Json)) : Except Crash Command := do
  let id ← required "id" fields
  let server ← (← required "guild_id" fields).toInteger
  let name ← required "name" fields
  let createdBy ← userOf (optional "created_by" fields)
  let createdAt ← instantOf (optional "created_at" fields)
  let updatedAt ← instantOf (optional "updated_at" fields)
  return {
    id := id.display, server, name := Text.lower name.display
    response := ((Json.field? "response".toList fields).getD (.text [])).display
    createdBy, createdAt, updatedAt }

/-- The command that a JSON value writes, which has to be an object. -/
def ofJson : Json → Except Crash Command
  | .object fields => ofFields fields
  | _ => .error .missingAttribute

end Command

end ChatCommands
