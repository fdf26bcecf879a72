import ChatCommands.Snapshot.Record
import ChatCommands.Value.Placement

/-!
The text of a record as an operand: the name of its kind and all that it holds, the fields that
no template can name included.
-/

namespace ChatCommands

def literalRecord (kind : String) (fields : List (String × Text)) : Text :=
  kind.toList ++ '(' ::
    Text.join ", ".toList (fields.map fun (name, value) => name.toList ++ '=' :: value) ++ [')']

/-- A sequence in parentheses, where a single item is followed by a comma. -/
def literalTuple : List Text → Text
  | [item] => '(' :: item ++ ",)".toList
  | items => '(' :: Text.join ", ".toList items ++ [')']

def literalSet (items : List Text) : Text :=
  if items.isEmpty then "frozenset()".toList
  else "frozenset(".toList ++ '\x7b' :: Text.join ", ".toList items ++ "\x7d)".toList

namespace Detail

def literal : Detail → Text
  | .role r => literalRecord "RoleInfo" [
    ("id", r.id.literal), ("name", r.name.literal), ("color", Text.ofInt r.color),
    ("position", Text.ofInt r.position), ("hoist", (Scalar.bool r.hoist).literal),
    ("managed", (Scalar.bool r.managed).literal),
    ("mentionable", (Scalar.bool r.mentionable).literal)]
  | .channel c => literalRecord "ChannelInfo" [
    ("id", c.id.literal), ("name", Text.quoted c.name), ("type", Text.quoted c.type),
    ("parent_id", c.parentId.literal)]
  | .event e => literalRecord "EventInfo" [
    ("id", e.id.literal), ("name", e.name.literal), ("description", e.description.literal),
    ("scheduled_start", (Scalar.ofOption e.scheduledStart).literal),
    ("scheduled_end", (Scalar.ofOption e.scheduledEnd).literal),
    ("status", (Scalar.ofOption e.status).literal),
    ("entity_type", (Scalar.ofOption e.entityType).literal),
    ("creator_id", e.creatorId.literal), ("channel_id", e.channelId.literal)]
  | .sticker s => literalRecord "StickerInfo" [
    ("id", s.id.literal), ("name", s.name.literal), ("description", s.description.literal),
    ("format_type", (Scalar.ofOption s.formatType).literal), ("pack_id", s.packId.literal)]

end Detail

/-- The ids of a user's roles, each once, in the order of their places in a set. -/
def User.listedRoleIds (u : User) : List Scalar :=
  Placement.ofList (Scalar.distinct u.roleIds)

namespace Record

def literal : Record → Text
  | .detail d => d.literal
  | .user u => literalRecord "UserInfo" [
    ("id", u.id.literal), ("username", Text.quoted u.username), ("tag", Text.quoted u.tag),
    ("display_name", Text.quoted u.displayName),
    ("roles", literalTuple (u.roles.map Scalar.literal)),
    ("role_ids", literalSet (u.listedRoleIds.map Scalar.literal)),
    ("manage_guild", (Scalar.bool u.manageGuild).literal)]
  | .server s => literalRecord "ServerInfo" [
    ("id", s.id.literal), ("name", s.name.literal), ("member_count", Text.ofInt s.memberCount),
    ("created_at", (Scalar.ofOption s.createdAt).literal), ("owner_id", s.ownerId.literal),
    ("description", s.description.literal), ("icon", (Scalar.ofOption s.icon).literal),
    ("banner", (Scalar.ofOption s.banner).literal),
    ("verification_level", (Scalar.ofOption s.verificationLevel).literal),
    ("roles", literalTuple (s.roles.map fun r => (Detail.role r).literal)),
    ("channels", literalTuple (s.channels.map fun c => (Detail.channel c).literal)),
    ("events", literalTuple (s.events.map fun e => (Detail.event e).literal)),
    ("stickers", literalTuple (s.stickers.map fun t => (Detail.sticker t).literal))]
  | .client seconds => literalRecord "ClientInfo" [("uptime_seconds", seconds.text)]

end Record

end ChatCommands
