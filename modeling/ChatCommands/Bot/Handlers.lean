import ChatCommands.Bot.Delivery
import ChatCommands.Bot.Invocation

/-!
The commands that manage custom commands, and the trigger of a custom command.

Only those who may manage the server change anything. Everyone may list the commands, trigger them
and ask for the prefix.
-/

namespace ChatCommands

/-- The id of the server that a message comes from, if any. -/
def Incoming.serverId? (m : Incoming) : Except Crash (Option Int) :=
  match m.server with
  | none => .ok none
  | some server => do
    let id ← server.get "id"
    return some (← id.toInteger)

namespace Handle

def prefixOf (s : Setup) (server : Option Int) : Handle Text := do
  return (← contents).prefixFor server s.defaultPrefix

/-- Goes on if a message comes from a server, or answers that it does not. -/
def fromServer (m : Incoming) (next : Handle Unit) : Handle Unit :=
  if m.server.isSome then next
  else answer "These commands can only be used within a server.".toList

/-- Goes on in the server of a message, or answers that there is none. -/
def inServer (m : Incoming) (next : Int → Handle Unit) : Handle Unit :=
  fromServer m do
    match ← ofCrash m.serverId? with
    | none => return
    | some server => next server

/-- Goes on in the server of a message if its author may manage it. -/
def asManager (m : Incoming) (next : Int → Handle Unit) : Handle Unit :=
  fromServer m do
    if User.canManage m.author then inServer m next
    else answer "You lack permission to run this command.".toList

def usage (s : Setup) (server : Int) (form : String) : Handle Unit := do
  answer ("Usage: `".toList ++ (← prefixOf s server) ++ form.toList ++ ['\x60'])

def notFound (identifier : Text) : Text :=
  "Couldn't find a command with ID or name **'".toList ++ identifier ++ "'**".toList

def listCommands (s : Setup) (m : Incoming) (page : Int) : Handle Unit :=
  inServer m fun server => do
    let commands := (← contents).list server
    if commands.isEmpty then
      answer ("No custom commands yet. Add one with `".toList ++ (← prefixOf s server) ++
        "custom add <name> <response>`.".toList)
    else answerEmbed (.list commands page)

def authorId (m : Incoming) : Handle (Option Int) := do
  match ← ofCrash (m.author.get "id") with
  | .scalar (.int id) => return some id
  | _ => return none

/-- Adds a command, unless its name is taken by a command of the bot or of the server. -/
def addCommand (s : Setup) (m : Incoming) (name response : Text) : Handle Unit :=
  asManager m fun server => do
    if Text.blank name || Text.blank response then
      usage s server "custom add <name> <response>"
    else if s.isBuiltin (Contents.key name) then
      answer ('\x60' :: name ++ "` is a built-in command and cannot be overridden.".toList)
    else
      match (← contents).find server name with
      | some known =>
        answer ("A custom command with the name **'".toList ++ known.name ++
          "'** already exists. (ID: ".toList ++ known.id ++ [')'])
      | none =>
        let author ← authorId m
        match ← change fun k => k.add server name response author with
        | .ok c => answerEmbed (.change "Custom Command Added".toList c "added".toList
            (some Embed.addedColor))
        | .error e => answer e.message

def editCommand (s : Setup) (m : Incoming) (identifier response : Text) : Handle Unit :=
  asManager m fun server => do
    if Text.blank identifier || Text.blank response then
      usage s server "custom edit <name|id> <new response>"
    else
      match ← change fun k => k.edit server identifier response with
      | .ok c => answerEmbed (.change "Custom Command Edited".toList c "edited".toList
          (some Embed.addedColor))
      | .error _ => answer (notFound identifier)

def removeCommand (s : Setup) (m : Incoming) (identifier : Text) : Handle Unit :=
  asManager m fun server => do
    if Text.blank identifier then usage s server "custom remove <name|id>"
    else
      match ← change fun k => k.remove server identifier with
      | .ok c => answerEmbed (.change "Custom Command Removed".toList c "removed".toList
          (some Embed.removedColor))
      | .error _ => answer (notFound identifier)

/-- Runs a template that is not kept, so that its author can try it. -/
def tryTemplate (s : Setup) (uptime : Binary64) (m : Incoming) (template : Text) : Handle Unit :=
  asManager m fun server => do
    if Text.blank template then usage s server "custom run <template>"
    else runTemplate s uptime m template []

/-- Shows the prefix of a server, or sets another. -/
def prefixCommand (s : Setup) (m : Incoming) (own : Text) : Handle Unit :=
  fromServer m do
    let cleaned := Text.strip own
    if cleaned.isEmpty then
      inServer m fun server => do
        answer ("The prefix for this server is `".toList ++ (← prefixOf s server) ++ "`.".toList)
    else
      asManager m fun server => do
        match ← change fun k => k.setPrefix server cleaned with
        | .ok _ => answer ("Prefix updated to `".toList ++ cleaned ++ "`.".toList)
        | .error e => answer e.message

/-- The custom command that a message triggers, with the words after its name. -/
def triggered (s : Setup) (server : Int) (m : Incoming) :
    Handle (Option (Command × List Text)) := do
  let own ← prefixOf s server
  match Invocation.ofText? own m.content with
  | none => return none
  | some call =>
    if s.isBuiltin call.name then return none
    else return ((← contents).find server call.name).map fun c => (c, call.args)

/-- Runs the custom command that a message triggers, and tells whether there is one. Messages of
bots and messages outside a server trigger none. -/
def message (s : Setup) (uptime : Binary64) (m : Incoming) : Handle Bool := do
  let author ← ofCrash (m.author.get "bot")
  if author.truth then return false
  match ← ofCrash m.serverId? with
  | none => return false
  | some server =>
    match ← triggered s server m with
    | none => return false
    | some (c, args) =>
      runTemplate s uptime m c.response args
      return true

end Handle

end ChatCommands
