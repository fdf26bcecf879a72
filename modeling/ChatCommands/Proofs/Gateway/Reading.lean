import ChatCommands.Gateway.Snapshot
import ChatCommands.Proofs.Result

/-!
What a snapshot takes from the objects of the gateway.

Each part of a snapshot is read from an attribute, and where one cannot be read there is no
snapshot. So a snapshot that was taken tells what was there.
-/

namespace ChatCommands

namespace Attribute

/-- The parts that an object has under a name, none where they are missing. -/
def parts (a : Attribute) (name : String) : List Attribute :=
  (a.getD name (.list [])).items.toOption.getD []

theorem get_eq {a b : Attribute} {name : String} (h : a.get name = .ok b) :
    a.get? name = some b := by
  unfold get at h
  split at h
  · rename_i found
    cases h
    exact found
  · cases h

theorem getD_eq {a b fallback : Attribute} {name : String} (h : a.get? name = some b) :
    a.getD name fallback = b := by
  rw [getD, h, Option.getD_some]

theorem parts_eq {a : Attribute} {name : String} {l : List Attribute}
    (h : (a.getD name (.list [])).items = .ok l) : a.parts name = l := by
  rw [parts, h]
  rfl

end Attribute

theorem Role.proper_eq {owner : Attribute} {roles : List Attribute}
    (h : Role.proper owner = .ok roles) :
    roles = (owner.parts "roles").filter fun r => !isCommon r := by
  obtain ⟨l, listed, rfl⟩ := map_eq_ok.mp h
  rw [Attribute.parts_eq listed]

theorem User.ofAttributes_eq {member : Attribute} {u : User}
    (h : User.ofAttributes member = .ok u) :
    ∃ roles names ids, Role.proper member = .ok roles ∧
      roles.mapM (Attribute.get "name") = .ok names ∧ roles.mapM (Attribute.get "id") = .ok ids ∧
      u.roles = names.map Attribute.toScalar ∧
      u.roleIds = Scalar.distinct (ids.map Attribute.toScalar) := by
  obtain ⟨roles, proper, h⟩ := bind_eq_ok.mp h
  obtain ⟨id, -, h⟩ := bind_eq_ok.mp h
  obtain ⟨names, named, h⟩ := bind_eq_ok.mp h
  obtain ⟨ids, numbered, h⟩ := bind_eq_ok.mp h
  cases h
  exact ⟨roles, names, ids, proper, named, numbered, rfl, rfl⟩

theorem Server.ofAttributes_eq {server : Attribute} {s : Server}
    (h : Server.ofAttributes server = .ok s) :
    ∃ roles, Role.proper server = .ok roles ∧ roles.mapM Role.ofAttributes = .ok s.roles ∧
      (server.parts "channels").mapM Channel.ofAttributes = .ok s.channels ∧
      (server.parts "stickers").mapM Sticker.ofAttributes = .ok s.stickers := by
  obtain ⟨id, -, h⟩ := bind_eq_ok.mp h
  obtain ⟨name, -, h⟩ := bind_eq_ok.mp h
  obtain ⟨count, -, h⟩ := bind_eq_ok.mp h
  obtain ⟨created, -, h⟩ := bind_eq_ok.mp h
  obtain ⟨roles, proper, h⟩ := bind_eq_ok.mp h
  obtain ⟨known, made, h⟩ := bind_eq_ok.mp h
  obtain ⟨channels, listed, h⟩ := bind_eq_ok.mp h
  obtain ⟨open', opened, h⟩ := bind_eq_ok.mp h
  obtain ⟨events, -, h⟩ := bind_eq_ok.mp h
  obtain ⟨planned, -, h⟩ := bind_eq_ok.mp h
  obtain ⟨pictures, offered, h⟩ := bind_eq_ok.mp h
  obtain ⟨stickers, taken, h⟩ := bind_eq_ok.mp h
  cases h
  exact ⟨roles, proper, made, Attribute.parts_eq listed ▸ opened, Attribute.parts_eq offered ▸ taken⟩

theorem Snapshot.ofMessage_eq {m : Incoming} {args : List Text} {uptime : Binary64} {s : Snapshot}
    (h : Snapshot.ofMessage m args uptime = .ok s) {server : Attribute}
    (inside : m.server = some server) :
    User.ofAttributes m.author = .ok s.user ∧ Server.ofAttributes server = .ok s.server ∧
      Channel.ofAttributes m.channel = .ok s.channel := by
  rw [ofMessage, inside] at h
  obtain ⟨user, member, h⟩ := bind_eq_ok.mp h
  obtain ⟨whole, guild, h⟩ := bind_eq_ok.mp h
  obtain ⟨channel, here, h⟩ := bind_eq_ok.mp h
  cases h
  exact ⟨member, guild, here⟩

theorem Role.ofAttributes_eq {role : Attribute} {r : Role} (h : Role.ofAttributes role = .ok r) :
    ∃ id name, role.get? "id" = some id ∧ role.get? "name" = some name ∧
      r.id = id.toScalar ∧ r.name = name.toScalar := by
  obtain ⟨id, numbered, h⟩ := bind_eq_ok.mp h
  obtain ⟨name, named, h⟩ := bind_eq_ok.mp h
  obtain ⟨color, -, h⟩ := bind_eq_ok.mp h
  obtain ⟨position, -, h⟩ := bind_eq_ok.mp h
  cases h
  exact ⟨id, name, Attribute.get_eq numbered, Attribute.get_eq named, rfl, rfl⟩

theorem Channel.ofAttributes_id {channel : Attribute} {c : Channel}
    (h : Channel.ofAttributes channel = .ok c) :
    ∃ id, channel.get? "id" = some id ∧ c.id = id.toScalar := by
  obtain ⟨id, numbered, h⟩ := bind_eq_ok.mp h
  cases h
  exact ⟨id, Attribute.get_eq numbered, rfl⟩

theorem Sticker.ofAttributes_id {sticker : Attribute} {t : Sticker}
    (h : Sticker.ofAttributes sticker = .ok t) :
    ∃ id, sticker.get? "id" = some id ∧ t.id = id.toScalar := by
  obtain ⟨id, numbered, h⟩ := bind_eq_ok.mp h
  obtain ⟨name, -, h⟩ := bind_eq_ok.mp h
  cases h
  exact ⟨id, Attribute.get_eq numbered, rfl⟩

theorem find?_of_mapM {α β ε : Type} {f : α → Except ε β} {p : α → Bool} {q : β → Bool}
    {xs : List α} {ys : List β} (h : xs.mapM f = .ok ys)
    (same : ∀ x y, f x = .ok y → p x = q y) {x : α} (found : xs.find? p = some x) :
    ∃ y, f x = .ok y ∧ ys.find? q = some y := by
  induction xs generalizing ys with
  | nil => cases found
  | cons first rest ih =>
    rw [List.mapM_cons] at h
    obtain ⟨y, made, h⟩ := bind_eq_ok.mp h
    obtain ⟨others, later, h⟩ := bind_eq_ok.mp h
    cases h
    rw [List.find?_cons, ← same first y made]
    rw [List.find?_cons] at found
    cases hit : p first with
    | true =>
      rw [hit] at found
      cases found
      exact ⟨y, made, rfl⟩
    | false =>
      rw [hit] at found
      exact ih later found

end ChatCommands
