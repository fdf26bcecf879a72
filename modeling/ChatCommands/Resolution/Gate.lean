import ChatCommands.Resolution.Error

/-!
The permission gates `require` and `not`.

A requirement is the word for server moderators, a text channel after a number sign, or a role.
Where the server has what is named, exactly one of the two gates lets the author pass.
-/

namespace ChatCommands

/-- What a gate asks for. -/
inductive Requirement where
  | moderator
  | channel (name : Text)
  | role (name : Text)
deriving DecidableEq

namespace Requirement

def moderatorWord : Text := "serverMod".toList

/-- The requirement that a text writes, unless it is blank. -/
def ofText? (t : Text) : Option Requirement :=
  match Text.strip t with
  | [] => none
  | c :: rest =>
    if c :: rest = moderatorWord then some .moderator
    else if c = '#' then some (.channel rest)
    else some (.role (c :: rest))


/-- Whether the author holds one of the ids. -/
def holdsRole (s : Snapshot) (r : Role) : Bool :=
  s.user.roleIds.any r.id.sameInside

def inChannel (s : Snapshot) (c : Channel) : Bool :=
  s.channel.id.same c.id

end Requirement

namespace Gate

open Requirement

def require (t : Text) (s : Snapshot) : Except TemplateError Unit :=
  match ofText? t with
  | none => .error (.instruction (.missingRequirement "require".toList))
  | some .moderator =>
    if s.user.manageGuild then .ok () else .error (.denied .notModerator)
  | some (.channel name) =>
    match s.server.findTextChannel name with
    | none => .error (.absent (.channel name))
    | some c => if inChannel s c then .ok () else .error (.denied (.outsideChannel c.id))
  | some (.role name) =>
    match s.server.findRole name with
    | none => .error (.absent (.role name))
    | some r => if holdsRole s r then .ok () else .error (.denied .withoutRole)

/-- The gate that turns away who meets the requirement. What the server lacks nobody meets. -/
def exclude (t : Text) (s : Snapshot) : Except TemplateError Unit :=
  match ofText? t with
  | none => .error (.instruction (.missingRequirement "not".toList))
  | some .moderator =>
    if s.user.manageGuild then .error (.denied .moderator) else .ok ()
  | some (.channel name) =>
    match s.server.findTextChannel name with
    | none => .ok ()
    | some c => if inChannel s c then .error (.denied (.insideChannel c.id)) else .ok ()
  | some (.role name) =>
    match s.server.findRole name with
    | none => .ok ()
    | some r => if holdsRole s r then .error (.denied .withRole) else .ok ()

end Gate

end ChatCommands
