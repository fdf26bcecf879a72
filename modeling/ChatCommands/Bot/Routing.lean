import ChatCommands.Bot.Builtin
import ChatCommands.Bot.Handlers

/-!
Which part of the bot answers a message: a command of its own, or a custom command.
-/

namespace ChatCommands.Handle

def perform (s : Setup) (uptime : Binary64) (m : Incoming) : Call → Handle Unit
  | .list page => listCommands s m page
  | .add name response => addCommand s m name response
  | .edit identifier response => editCommand s m identifier response
  | .remove identifier => removeCommand s m identifier
  | .run template => tryTemplate s uptime m template
  | .showPrefix own => prefixCommand s m own
  | .help => return

/-- Reads the arguments of a command and carries it out. Where custom commands are not set up, only
the arguments are read. A crash is reported and goes no further. -/
def builtin (s : Setup) (ready : Bool) (uptime : Binary64) (m : Incoming) (b : Builtin) (t : Text) :
    Handle Unit := do
  match Call.ofText t b with
  | .error .badPage =>
    answer
      "Invalid argument: Converting to \"int\" failed for parameter \"page\".".toList
  | .error (.word _) => report .builtinFailed
  | .ok call =>
    if ready then
      tryCatch (perform s uptime m call) fun _ => report .builtinFailed

/-- The command of the bot that a message names. A message of the bot itself names none. -/
def builtinOf (s : Setup) (ownId : Int) (m : Incoming) : Handle (Option (Builtin × Text)) := do
  let author ← ofCrash (m.author.get "id")
  if author.toScalar.same (.int ownId) then return none
  let own ← prefixOf s (← ofCrash m.serverId?)
  return (own.isPrefixOf? m.content).bind Builtin.ofText?

def route (s : Setup) (ready : Bool) (ownId : Int) (uptime : Binary64) (m : Incoming) :
    Handle Unit := do
  let author ← ofCrash (m.author.get "bot")
  if author.truth then return
  match ← builtinOf s ownId m with
  | some (b, t) => builtin s ready uptime m b t
  | none =>
    if ready then
      let _ ← message s uptime m

end ChatCommands.Handle
