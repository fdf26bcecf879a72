import ChatCommands.Snapshot.Literal
import ChatCommands.Json.Write

/-!
The values that templates compute with: JSON values, fixed sequences and records.

A fixed sequence comes from the snapshot, an array from JSON; the two are never equal.
-/

namespace ChatCommands

/-- An item of a sequence. -/
inductive Item where
  | json (j : Json)
  | detail (d : Detail)

inductive Value where
  | json (j : Json)
  | tuple (items : List Item)
  | record (r : Record)

/-- The kinds of values that an error about a comparison tells apart. -/
inductive Kind where
  | null
  | bool
  | int
  | float
  | text
  | array
  | object
  | tuple
  | role
  | channel
  | event
  | sticker
  | user
  | server
  | client
deriving DecidableEq

def Kind.name : Kind → String
  | .null => "NoneType"
  | .bool => "bool"
  | .int => "int"
  | .float => "float"
  | .text => "str"
  | .array => "list"
  | .object => "dict"
  | .tuple => "tuple"
  | .role => "RoleInfo"
  | .channel => "ChannelInfo"
  | .event => "EventInfo"
  | .sticker => "StickerInfo"
  | .user => "UserInfo"
  | .server => "ServerInfo"
  | .client => "ClientInfo"

def Scalar.kind : Scalar → Kind
  | .null => .null
  | .bool _ => .bool
  | .int _ => .int
  | .float _ => .float
  | .text _ => .text

def Json.kind : Json → Kind
  | .scalar s => s.kind
  | .array _ => .array
  | .object _ => .object

def Detail.kind : Detail → Kind
  | .role _ => .role
  | .channel _ => .channel
  | .event _ => .event
  | .sticker _ => .sticker

def Record.kind : Record → Kind
  | .detail d => d.kind
  | .user _ => .user
  | .server _ => .server
  | .client _ => .client

namespace Item

/-- The JSON value of an item; a record becomes an object of its exports. -/
def plain : Item → Json
  | .json j => j
  | .detail d => .object (d.exports.map fun (name, s) => (name, .scalar s))

/-- The text of an item in a list: containers and records are JSON. -/
def text : Item → Text
  | .json (.scalar s) => s.rendered
  | i => i.plain.write false

def literal : Item → Text
  | .json j => j.literal
  | .detail d => d.literal

def same : Item → Item → Bool
  | .json a, .json b => a.sameInside b
  | .detail a, .detail b => a == b
  | _, _ => false

def value : Item → Value
  | .json j => .json j
  | .detail d => .record (.detail d)

end Item

namespace Value

abbrev scalar (s : Scalar) : Value := .json (.scalar s)
abbrev null : Value := scalar .null
abbrev bool (b : Bool) : Value := scalar (.bool b)
abbrev text (t : Text) : Value := scalar (.text t)

instance : Inhabited Value := ⟨null⟩

def kind : Value → Kind
  | .json j => j.kind
  | .tuple _ => .tuple
  | .record r => r.kind

def items? : Value → Option (List Item)
  | .json (.array items) => some (items.map .json)
  | .tuple items => some items
  | _ => none

def truth : Value → Bool
  | .json j => j.truth
  | .tuple items => !items.isEmpty
  | .record _ => true

/-- The number that a value is taken for where one is wanted. -/
def number? : Value → Option Number
  | .json (.scalar s) => s.number?
  | _ => none

/-- Equality: scalars by value, sequences item by item, objects field by field. -/
def same : Value → Value → Bool
  | .json a, .json b => a.same b
  | .tuple xs, .tuple ys => xs.length == ys.length && (xs.zip ys).all fun (x, y) => x.same y
  | .record a, .record b => a == b
  | _, _ => false

def display : Value → Text
  | .json j => j.display
  | .tuple items => literalTuple (items.map Item.literal)
  | .record r => r.literal

def scalarText : Value → Text
  | .json (.scalar s) => s.rendered
  | v => v.display

end Value

namespace Export

def value : Export → Except Crash Value
  | .scalar s => .ok (.scalar s)
  | .scalars items => .ok (.tuple (items.map fun s => .json (.scalar s)))
  | .details items => .ok (.tuple (items.map .detail))
  | .uptime seconds => (Uptime.text seconds).map .text

def plain : Export → Except Crash Json
  | .scalar s => .ok (.scalar s)
  | .scalars items => .ok (.array (items.map .scalar))
  | .details items => .ok (.array (items.map fun d => (Item.detail d).plain))
  | .uptime seconds => (Uptime.text seconds).map .text

end Export

namespace Record

/-- The value of an exported field, where the record exports one of that name. -/
def field? (r : Record) (name : Text) : Except Crash (Option Value) :=
  match r.exports.lookup name with
  | some e => e.value.map some
  | none => .ok none

def plain (r : Record) : Except Crash Json := do
  let fields ← r.exports.mapM fun f => f.2.plain.map fun j => (f.1, j)
  return .object fields

end Record

namespace Value

/-- The JSON value of a value: records become objects and fixed sequences arrays. -/
def plain : Value → Except Crash Json
  | .json j => .ok j
  | .tuple items => .ok (.array (items.map Item.plain))
  | .record r => r.plain

/-- The text of a value in an output: a sequence is its items with blanks between, a record or an
object is JSON. -/
def rendered : Value → Except Crash Text
  | .json (.scalar s) => .ok s.rendered
  | .json (.array items) => .ok (Text.join [' '] (items.map fun j => (Item.json j).text))
  | .json (.object fields) => .ok ((Json.object fields).write false)
  | .tuple items => .ok (Text.join [' '] (items.map Item.text))
  | .record r => r.plain.map (Json.write false)

end Value

end ChatCommands
