import ChatCommands.Gateway.Attribute
import ChatCommands.Snapshot.Record

/-!
The snapshot of a message that arrives from the gateway, and the right to manage commands.

The role that every member has is left out everywhere. Ids and names must be there; what else is
missing has a fallback.
-/

namespace ChatCommands

/-- A message as it arrives, outside any server or in one. -/
structure Incoming where
  author : Attribute
  server : Option Attribute
  channel : Attribute
  content : Text

namespace Role

/-- Whether a role is the one that every member has. -/
def isCommon (role : Attribute) : Bool :=
  role.flag "is_default"

/-- The roles of a member or a server, without the one that every member has. -/
def proper (owner : Attribute) : Except Crash (List Attribute) :=
  (owner.getD "roles" (.list [])).items.map fun roles => roles.filter fun r => !isCommon r

def ofAttributes (role : Attribute) : Except Crash Role := do
  let color := role.getD "color" (.scalar (.int 0))
  let id ← role.get "id"
  let name ← role.get "name"
  return {
    id := id.toScalar, name := name.toScalar
    color := ← ((color.getD "value" color).orElse (.scalar (.int 0))).toInteger
    position := ← (role.getD "position" (.scalar (.int 0))).toInteger
    hoist := role.flag "hoist", managed := role.flag "managed"
    mentionable := role.flag "mentionable" }

end Role

def Channel.ofAttributes (channel : Attribute) : Except Crash Channel := do
  let id ← channel.get "id"
  let type := ((channel.getD "type" .null).choiceName?).getD []
  return {
    id := id.toScalar
    name := ((channel.getD "name" .null).orElse (.scalar (.text []))).display
    type := if type.isEmpty then "text".toList else type
    parentId := (channel.getD "category_id" .null).toScalar }

def Event.ofAttributes (event : Attribute) : Except Crash Event := do
  let id ← event.get "id"
  let name ← event.get "name"
  return {
    id := id.toScalar, name := name.toScalar
    description := (event.getD "description" .null).toScalar
    scheduledStart := ← (event.getD "start_time" .null).instantText?
    scheduledEnd := ← (event.getD "end_time" .null).instantText?
    status := (event.getD "status" .null).choiceName?
    entityType := (event.getD "entity_type" .null).choiceName?
    creatorId := (event.getD "creator_id" .null).toScalar
    channelId := (event.getD "channel_id" .null).toScalar }

def Sticker.ofAttributes (sticker : Attribute) : Except Crash Sticker := do
  let id ← sticker.get "id"
  let name ← sticker.get "name"
  return {
    id := id.toScalar, name := name.toScalar
    description := (sticker.getD "description" .null).toScalar
    formatType := (sticker.getD "format" .null).choiceName?
    packId := (sticker.getD "pack_id" .null).toScalar }

namespace User

def ofAttributes (member : Attribute) : Except Crash User := do
  let roles ← Role.proper member
  let id ← member.get "id"
  let name := member.getD "name" (.scalar (.text []))
  let names ← roles.mapM (Attribute.get "name")
  let ids ← roles.mapM (Attribute.get "id")
  return {
    id := id.toScalar, username := name.display, tag := member.display
    displayName := ((member.getD "display_name" (.scalar (.text []))).orElse name).display
    roles := names.map Attribute.toScalar
    roleIds := Scalar.distinct (ids.map Attribute.toScalar)
    manageGuild := (member.getD "guild_permissions" .null).flag "manage_guild" }

/-- Whether a member may change the commands of the server. -/
def canManage (member : Attribute) : Bool :=
  let permissions := member.getD "guild_permissions" .null
  permissions.flag "manage_guild" || permissions.flag "administrator"

end User

def Server.ofAttributes (server : Attribute) : Except Crash Server := do
  let id ← server.get "id"
  let name ← server.get "name"
  let listed (key : String) : Except Crash (List Attribute) :=
    (server.getD key (.list [])).items
  return {
    id := id.toScalar, name := name.toScalar
    memberCount := ←
      ((server.getD "member_count" .null).orElse (.scalar (.int 0))).toInteger
    createdAt := ← (server.getD "created_at" .null).instantText?
    ownerId := (server.getD "owner_id" .null).toScalar
    description := (server.getD "description" .null).toScalar
    icon := (server.getD "icon" .null).address?
    banner := (server.getD "banner" .null).address?
    verificationLevel := (server.getD "verification_level" .null).choiceName?
    roles := ← (← Role.proper server).mapM Role.ofAttributes
    channels := ← (← listed "channels").mapM Channel.ofAttributes
    events := ← (← listed "scheduled_events").mapM Event.ofAttributes
    stickers := ← (← listed "stickers").mapM Sticker.ofAttributes }

/-- The snapshot of a message, which must come from a server. -/
def Snapshot.ofMessage (m : Incoming) (args : List Text) (uptime : Binary64) :
    Except Crash Snapshot :=
  match m.server with
  | none => .error .noServer
  | some server => do
    return {
      args, user := ← User.ofAttributes m.author, server := ← Server.ofAttributes server
      channel := ← Channel.ofAttributes m.channel, uptime }

end ChatCommands
