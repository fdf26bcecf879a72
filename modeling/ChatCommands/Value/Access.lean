import ChatCommands.Value.Basic

/-!
Access to the parts of a value: fields, indices and methods.

None stands for a part that does not exist. An index beyond the end of a sequence is no such
part: it gives null.
-/

namespace ChatCommands.Value

def lengthName : Text := "length".toList

/-- A field by name: an export of a record, a field of an object, or the length of a sequence or
text. -/
def field? (v : Value) (name : Text) : Except Crash (Option Value) :=
  match v with
  | .record r => r.field? name
  | .json (.object fields) => .ok ((Json.field? name fields).map .json)
  | .json (.scalar (.text t)) =>
    .ok (if name = lengthName then some (.scalar (.int t.length)) else none)
  | v => .ok (v.items?.bind fun items =>
      if name = lengthName then some (.scalar (.int items.length)) else none)

/-- The text of a value, if it is one. -/
def text? : Value → Option Text
  | .json (.scalar (.text t)) => some t
  | _ => none

/-- The item of a sequence at an integer, null outside it. -/
def itemAt (items : List Item) (n : Int) : Value :=
  if n < 0 then .null else (items[n.toNat]?.map Item.value).getD .null

def index? (v key : Value) : Except Crash (Option Value) :=
  match v.items? with
  | some items =>
    match key.number? with
    | some (.int n) => .ok (some (itemAt items n))
    | _ =>
      match key.text? with
      | some name => v.field? name
      | none => .ok none
  | none =>
    match v with
    | .json (.object fields) => .ok ((Json.field? (key.text?.getD key.scalarText) fields).map .json)
    | .record r =>
      match key.text? with
      | some name => r.field? name
      | none => .ok none
    | _ => .ok none

/-- The items from number `start` on, as one text. -/
def joinFrom? (v : Value) (start : Nat) : Option Value :=
  v.items?.map fun items => .text (Text.join [' '] ((items.drop start).map Item.text))

def callItems? (items : List Item) (name : Text) (args : List Value) : Option Value :=
  if name = "join".toList then
    match args with
    | [] => some (.text (Text.join [','] (items.map Item.text)))
    | [separator] => some (.text (Text.join separator.scalarText (items.map Item.text)))
    | _ => none
  else if name = "includes".toList then
    match args with
    | [needle] => some (.bool (items.any fun i => i.text == needle.scalarText))
    | _ => none
  else none

def callText? (t name : Text) (args : List Value) : Option Value :=
  match args with
  | [] =>
    if name = "toLowerCase".toList then some (.text (Text.lower t))
    else if name = "toUpperCase".toList then some (.text (Text.upper t))
    else if name = "trim".toList then some (.text (Text.strip t))
    else none
  | [needle] =>
    let needle := needle.scalarText
    if name = "includes".toList then some (.bool (Text.includes needle t))
    else if name = "startsWith".toList then some (.bool (needle.isPrefixOf t))
    else if name = "endsWith".toList then some (.bool (needle.isSuffixOf t))
    else none
  | _ => none

/-- The methods of a record: a user tells whether it has a role of a name. -/
def callRecord? (r : Record) (name : Text) (args : List Value) : Option Value :=
  match r, args with
  | .user u, [role] =>
    if name = "hasRole".toList then
      some (.bool (u.roles.any fun s => s.same (.text role.display)))
    else none
  | _, _ => none

def call? (v : Value) (name : Text) (args : List Value) : Option Value :=
  match v with
  | .record r => callRecord? r name args
  | .json (.scalar (.text t)) => callText? t name args
  | v => v.items?.bind fun items => callItems? items name args

end ChatCommands.Value
