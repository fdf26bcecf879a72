import ChatCommands.Store.Command

/-!
The custom commands and prefixes of all servers.

A command is found by its id or by its name, never from another server. Every change is made in
two steps: first the contents change, or the change is refused and nothing is touched; then the
contents of that moment are written to the file.
-/

namespace ChatCommands

/-- The commands in the order of their creation, and the prefix that each server has set. -/
structure Contents where
  commands : List Command
  prefixes : List (Int × Option Text)
deriving DecidableEq

/-- Why a change is refused. -/
inductive StoreError where
  | notOneWord
  | blankResponse
  | taken (name : Text)
  | unknown (identifier : Text)
  | badPrefix
deriving DecidableEq

def StoreError.message : StoreError → Text
  | .notOneWord => "Command names must be a single word.".toList
  | .blankResponse => "The command response cannot be empty.".toList
  | .taken name => "A custom command named `".toList ++ name ++ "` already exists.".toList
  | .unknown identifier => "No custom command matches `".toList ++ identifier ++ "`.".toList
  | .badPrefix => "The prefix must be non-empty and contain no spaces.".toList

namespace Contents

def empty : Contents := ⟨[], []⟩

def key (name : Text) : Text :=
  Text.lower (Text.strip name)

/-- Whether a text is one word. -/
def isWord (t : Text) : Bool :=
  !t.isEmpty && !t.any Text.isBlank

def find (s : Contents) (server : Int) (name : Text) : Option Command :=
  s.commands.find? fun c => c.server == server && c.name == key name

/-- The command of a server with an id, or else with a name. -/
def findByIdentifier (s : Contents) (server : Int) (identifier : Text) : Option Command :=
  match s.commands.find? fun c => c.id == Text.strip identifier with
  | some c => if c.server == server then some c else s.find server identifier
  | none => s.find server identifier

/-- The commands of a server, sorted by name. -/
def list (s : Contents) (server : Int) : List Command :=
  (s.commands.filter fun c => c.server == server).mergeSort fun a b => !Text.before b.name a.name

/-- The prefix of a server, where it has set one. -/
def prefixFor (s : Contents) (server : Option Int) (fallback : Text) : Text :=
  match server with
  | none => fallback
  | some id =>
    match s.prefixes.lookup id with
    | some (some own) => if own.isEmpty then fallback else own
    | _ => fallback

/-- Puts a command in the place of the one with its id, or at the end. -/
def put (s : Contents) (c : Command) : Contents :=
  { s with commands :=
      if s.commands.any fun d => d.id == c.id then
        s.commands.map fun d => if d.id == c.id then c else d
      else s.commands ++ [c] }

/-- Sets the prefix of a server in its place, or at the end. -/
def putPrefix (server : Int) (own : Option Text) :
    List (Int × Option Text) → List (Int × Option Text)
  | [] => [(server, own)]
  | (id, old) :: rest =>
    if id = server then (id, own) :: rest else (id, old) :: putPrefix server own rest

def add (s : Contents) (server : Int) (name response : Text) (createdBy : Option Int) (id : Text)
    (now : Instant) : Except StoreError (Command × Contents) :=
  if !isWord (key name) then .error .notOneWord
  else if Text.blank response then .error .blankResponse
  else if (s.find server (key name)).isSome then .error (.taken (key name))
  else
    let c : Command := ⟨id, server, key name, response, createdBy, some now, some now⟩
    .ok (c, s.put c)

def edit (s : Contents) (server : Int) (identifier response : Text) (now : Instant) :
    Except StoreError (Command × Contents) :=
  match s.findByIdentifier server identifier with
  | none => .error (.unknown identifier)
  | some old =>
    if Text.blank response then .error .blankResponse
    else
      let c := { old with response, updatedAt := some now }
      .ok (c, s.put c)

def remove (s : Contents) (server : Int) (identifier : Text) :
    Except StoreError (Command × Contents) :=
  match s.findByIdentifier server identifier with
  | none => .error (.unknown identifier)
  | some c => .ok (c, { s with commands := s.commands.filter fun d => d.id != c.id })

def setPrefix (s : Contents) (server : Int) (own : Text) : Except StoreError (Text × Contents) :=
  let cleaned := Text.strip own
  if !isWord cleaned then .error .badPrefix
  else .ok (cleaned, { s with prefixes := putPrefix server (some cleaned) s.prefixes })

end Contents

end ChatCommands
