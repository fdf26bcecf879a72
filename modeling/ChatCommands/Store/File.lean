import ChatCommands.Store.Basic
import ChatCommands.Warning

/-!
The file of a store: reading what is well formed in it, and writing the contents.

An entry that is malformed is left out with a warning, whatever stands beside it. A file that is
not JSON gives an empty store.
-/

namespace ChatCommands

namespace Contents

def toJson (s : Contents) : Json :=
  .object [
    ("commands".toList, .array (s.commands.map Command.toJson)),
    ("guilds".toList, .object (s.prefixes.map fun (id, own) =>
      (Text.ofInt id, .object [("prefix".toList, (own.map Json.text).getD .null)])))]

def fileText (s : Contents) : Text :=
  s.toJson.writeIndented 0

/-- Reads one entry into the contents. What is no object is passed over in silence. -/
def readCommand (s : Contents) (entry : Json) : Except Crash (Contents × List Warning) :=
  match entry with
  | .object fields =>
    match Command.ofFields fields with
    | .ok c => .ok (s.put c, [])
    | .error c => if c.escapes then .error c else .ok (s, [.malformedCommand])
  | _ => .ok (s, [])

def readCommands (s : Contents) : List Json → Except Crash (Contents × List Warning)
  | [] => .ok (s, [])
  | entry :: rest => do
    let (s, here) ← readCommand s entry
    let (s, later) ← readCommands s rest
    return (s, here ++ later)

/-- The prefix that the settings of a server hold, if it is not blank. -/
def prefixOf (fields : List (Text × Json)) : Option Text :=
  let value := (Json.field? "prefix".toList fields).getD .null
  let own := Text.strip (if value.truth then value.display else [])
  if own.isEmpty then none else some own

def readPrefixes (s : Contents) : List (Text × Json) → Contents × List Warning
  | [] => (s, [])
  | (key, entry) :: rest =>
    match entry with
    | .object fields =>
      match Numeral.readInt key with
      | some id =>
        readPrefixes { s with prefixes := putPrefix id (prefixOf fields) s.prefixes } rest
      | none =>
        let (s, later) := readPrefixes s rest
        (s, .malformedServerId :: later)
    | _ => readPrefixes s rest

/-- The entries of the list of commands. A text or an object has none that count. -/
def entriesOf : Option Json → Except Crash (List Json)
  | none => .ok []
  | some (.array items) => .ok items
  | some (.object _) => .ok []
  | some (.scalar (.text _)) => .ok []
  | some _ => .error .wrongKind

def ofJson : Json → Except Crash (Contents × List Warning)
  | .object fields => do
    let entries ← entriesOf (Json.field? "commands".toList fields)
    let (s, first) ← readCommands empty entries
    match Json.field? "guilds".toList fields with
    | some (.object guilds) =>
      let (s, second) := readPrefixes s guilds
      return (s, first ++ second)
    | _ => return (s, first)
  | _ => .error .missingAttribute

/-- The contents of a file, empty where there is none. -/
def ofFile : Option Text → Except Crash (Contents × List Warning)
  | none => .ok (empty, [])
  | some t =>
    match Json.read t with
    | .ok j => ofJson j
    | .error (.malformed _ _) => .ok (empty, [.malformedStore])
    | .error .tooManyDigits => .error .tooManyDigits

end Contents

/-- A store: the contents in memory, and the file. -/
structure Store where
  contents : Contents
  file : Option Text

namespace Store

def load (file : Option Text) : Except Crash (Store × List Warning) :=
  (Contents.ofFile file).map fun (s, warnings) => (⟨s, file⟩, warnings)

def save (s : Store) : Store :=
  { s with file := some s.contents.fileText }

/-- A change of the contents that is written to the file when it is made. -/
def change (s : Store) (f : Contents → Except StoreError (α × Contents)) :
    Except StoreError (α × Store) :=
  (f s.contents).map fun (a, contents) => (a, save { s with contents })

def add (s : Store) (server : Int) (name response : Text) (createdBy : Option Int) (id : Text)
    (now : Instant) : Except StoreError (Command × Store) :=
  s.change fun c => c.add server name response createdBy id now

def edit (s : Store) (server : Int) (identifier response : Text) (now : Instant) :
    Except StoreError (Command × Store) :=
  s.change fun c => c.edit server identifier response now

def remove (s : Store) (server : Int) (identifier : Text) : Except StoreError (Command × Store) :=
  s.change fun c => c.remove server identifier

def setPrefix (s : Store) (server : Int) (own : Text) : Except StoreError (Text × Store) :=
  s.change fun c => c.setPrefix server own

end Store

end ChatCommands
