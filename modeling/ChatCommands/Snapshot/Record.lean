import ChatCommands.Json.Basic
import ChatCommands.Snapshot.Uptime

/-!
What a template may know of the moment that triggered it: the words of the message, its author,
server and channel, and how long the process has run.

A record shows templates only the fields that its export list names. What else it holds, such as
the ids of the author's roles, is for the permission gates. Names and ids are scalars, passed on
as the gateway gives them.
-/

namespace ChatCommands

structure Role where
  id : Scalar
  name : Scalar
  color : Int
  position : Int
  hoist : Bool
  managed : Bool
  mentionable : Bool
deriving DecidableEq

structure Channel where
  id : Scalar
  name : Text
  type : Text
  parentId : Scalar
deriving DecidableEq

structure Event where
  id : Scalar
  name : Scalar
  description : Scalar
  scheduledStart : Option Text
  scheduledEnd : Option Text
  status : Option Text
  entityType : Option Text
  creatorId : Scalar
  channelId : Scalar
deriving DecidableEq

structure Sticker where
  id : Scalar
  name : Scalar
  description : Scalar
  formatType : Option Text
  packId : Scalar
deriving DecidableEq

structure User where
  id : Scalar
  username : Text
  tag : Text
  displayName : Text
  roles : List Scalar
  roleIds : List Scalar
  manageGuild : Bool
deriving DecidableEq

structure Server where
  id : Scalar
  name : Scalar
  memberCount : Int
  createdAt : Option Text
  ownerId : Scalar
  description : Scalar
  icon : Option Text
  banner : Option Text
  verificationLevel : Option Text
  roles : List Role
  channels : List Channel
  events : List Event
  stickers : List Sticker
deriving DecidableEq

/-- Everything a template may read about one trigger, and what the gates read. -/
structure Snapshot where
  args : List Text
  user : User
  server : Server
  channel : Channel
  uptime : Binary64
deriving DecidableEq

/-- A text that may be absent, as a scalar. -/
def Scalar.ofOption (t : Option Text) : Scalar :=
  (t.map .text).getD .null

/-- A record whose exported fields are all scalars. -/
inductive Detail where
  | role (r : Role)
  | channel (c : Channel)
  | event (e : Event)
  | sticker (s : Sticker)
deriving DecidableEq

/-- The fields of a detail that templates see, by the names they use. -/
def Detail.exports : Detail → List (Text × Scalar)
  | .role r => [
    ("id".toList, r.id), ("name".toList, r.name), ("color".toList, .int r.color),
    ("position".toList, .int r.position), ("hoist".toList, .bool r.hoist),
    ("managed".toList, .bool r.managed), ("mentionable".toList, .bool r.mentionable)]
  | .channel c => [
    ("id".toList, c.id), ("name".toList, .text c.name), ("type".toList, .text c.type),
    ("parentId".toList, c.parentId)]
  | .event e => [
    ("id".toList, e.id), ("name".toList, e.name), ("description".toList, e.description),
    ("scheduledStart".toList, .ofOption e.scheduledStart),
    ("scheduledEnd".toList, .ofOption e.scheduledEnd), ("status".toList, .ofOption e.status),
    ("entityType".toList, .ofOption e.entityType), ("creatorId".toList, e.creatorId),
    ("channelId".toList, e.channelId)]
  | .sticker s => [
    ("id".toList, s.id), ("name".toList, s.name), ("description".toList, s.description),
    ("formatType".toList, .ofOption s.formatType), ("packId".toList, s.packId)]

inductive Record where
  | detail (d : Detail)
  | user (u : User)
  | server (s : Server)
  | client (uptime : Binary64)
deriving DecidableEq

/-- What a field of a record exports. -/
inductive Export where
  | scalar (s : Scalar)
  | scalars (items : List Scalar)
  | details (items : List Detail)
  | uptime (seconds : Binary64)

def User.mention (u : User) : Text :=
  "<@".toList ++ u.id.display ++ ">".toList

/-- The fields of a record that templates see, by the names they use. -/
def Record.exports : Record → List (Text × Export)
  | .detail d => d.exports.map fun (name, s) => (name, .scalar s)
  | .user u => [
    ("id".toList, .scalar u.id), ("username".toList, .scalar (.text u.username)),
    ("tag".toList, .scalar (.text u.tag)), ("displayName".toList, .scalar (.text u.displayName)),
    ("mention".toList, .scalar (.text u.mention)), ("roles".toList, .scalars u.roles)]
  | .server s => [
    ("id".toList, .scalar s.id), ("name".toList, .scalar s.name),
    ("memberCount".toList, .scalar (.int s.memberCount)),
    ("createdAt".toList, .scalar (.ofOption s.createdAt)), ("ownerId".toList, .scalar s.ownerId),
    ("description".toList, .scalar s.description), ("icon".toList, .scalar (.ofOption s.icon)),
    ("banner".toList, .scalar (.ofOption s.banner)),
    ("verificationLevel".toList, .scalar (.ofOption s.verificationLevel)),
    ("roles".toList, .details (s.roles.map .role)),
    ("channels".toList, .details (s.channels.map .channel)),
    ("events".toList, .details (s.events.map .event)),
    ("stickers".toList, .details (s.stickers.map .sticker))]
  | .client seconds => [("uptime".toList, .uptime seconds)]

namespace Server

def findRole (s : Server) (name : Text) : Option Role :=
  s.roles.find? fun r => r.name.same (.text name)

def findTextChannel (s : Server) (name : Text) : Option Channel :=
  s.channels.find? fun c => c.name = name ∧ c.type = "text".toList

def findSticker (s : Server) (key : Text) : Option Sticker :=
  s.stickers.find? fun t => t.name.same (.text key) || t.id.display == key

end Server

end ChatCommands
