import ChatCommands.Bot.Scene
import ChatCommands.Gateway.Snapshot
import ChatCommands.Resolution.Basic

/-!
Running a template for a message, and posting what comes of it.

A denial is answered to the author alone, any other failure is shown in the channel. The output is
one post with the stickers, and one for each message that follows.
-/

namespace ChatCommands

/-- What the handling of a message depends on beside the state. -/
structure Setup where
  defaultPrefix : Text
  maxSteps : Int
  requestsEnabled : Bool
  isBuiltin : Text → Bool

def postLimit : Nat := 2000

def emptyOutput : Text := "(Empty response)".toList

def genericFailure : Text := "Something went wrong while running this command.".toList

/-- The content of the first post: nothing where the text is blank beside stickers. -/
def Message.content (m : Message) : Option Text :=
  let body := if m.isEmpty then emptyOutput else m.text
  if Text.blank body then none else some (body.truncate postLimit)

/-- The id of a sticker, which has to be one for the chat service. -/
def Attachment.serviceId (a : Attachment) : Except Crash Int :=
  a.id.toInteger.mapError fun c => if c.escapes then c else .wrongKind

def Message.first (m : Message) : Except Crash Post := do
  return .output m.content (← m.stickers.mapM Attachment.serviceId) .usersOnly

def Message.others (m : Message) : List Post :=
  m.deliverable.map fun t => .output (some (t.truncate postLimit)) [] .usersOnly

namespace Handle

/-- Posts one after the other, up to the first that fails. -/
def postAll : List Post → Handle Bool
  | [] => return true
  | p :: rest => do
    if ← post p then postAll rest else return false

def deliver (m : Message) : Handle Unit := do
  let first ← ofCrash m.first
  if ← postAll (first :: m.others) then return
  report .outputNotSent

def postError (t : Text) : Handle Unit := do
  if ← post (.errorEmbed (.error t)) then return
  report .errorNotSent

/-- Whether an error comes from a request that got no response, which the transport reports. -/
def isUnanswered : TemplateError → Bool
  | .request e => e.status.isNone
  | _ => false

def explain : Fault → Handle Unit
  | .template (.denied e) => do
    let _ ← post (.refusal e.message)
  | .template e => do
    if isUnanswered e then report .requestFailed
    report .commandFailed
    postError e.userMessage
  | .crash _ => do
    report .unexpectedFailure
    postError genericFailure

def resolved (s : Setup) (uptime : Binary64) (m : Incoming) (template : Text) (args : List Text) :
    Handle (Except Fault Message) := do
  match Snapshot.ofMessage m args uptime with
  | .error c => return .error (.crash c)
  | .ok snapshot =>
    let scene ← get
    let effects : Effects := ⟨[], [], [], scene.rolls, [], some scene.transport⟩
    let (result, final) := resolve ⟨snapshot, s.maxSteps, s.requestsEnabled⟩ template
      (Run.start effects)
    set { scene with
      transport := final.effects.transport.getD scene.transport, rolls := final.effects.rolls }
    return result

def runTemplate (s : Setup) (uptime : Binary64) (m : Incoming) (template : Text)
    (args : List Text) : Handle Unit := do
  match ← resolved s uptime m template args with
  | .ok result => deliver result
  | .error fault => explain fault

end Handle

end ChatCommands
