import ChatCommands.Store.Keeper

/-!
A change of the store as it is carried out.

A work order runs as checks and changes in place, one after the other, and nothing is undone where
it is refused. It comes in two parts, the change in memory and the writing of the file. Between
the two others may come in, and at the desk the parts of many orders follow each other in any way.
-/

namespace ChatCommands

/-- Part of a change. What has been done when it is refused stays done. -/
abbrev Work := ExceptT StoreError (StateM Keeper)

namespace Work

def outcome (x : Work α) (k : Keeper) : Except StoreError α × Keeper :=
  x.run.run k

def contents : Work Contents := do
  return (← get).contents

def check (holds : Bool) (e : StoreError) : Work Unit :=
  if holds then return else throw e

def takeId : Work Text := do
  let k ← get
  set { k with supply := { k.supply with ids := k.supply.ids + 1 } }
  return k.supply.nextId

def takeTime : Work Instant := do
  let k ← get
  set { k with supply := { k.supply with times := k.supply.times + 1 } }
  return k.supply.now

/-- A change in memory, of which the file does not know yet. -/
def alter (f : Contents → Contents) : Work Unit :=
  modify fun k => { k with store := { k.store with contents := f k.contents } }

/-- Writes what the memory holds by now. -/
def save : Work Unit :=
  modify fun k => { k with store := k.store.save }

def known (server : Int) (identifier : Text) : Work Command := do
  match (← contents).findByIdentifier server identifier with
  | some c => return c
  | none => throw (.unknown identifier)

def add (server : Int) (name response : Text) (createdBy : Option Int) : Work Command := do
  let lowered := Contents.key name
  check (Contents.isWord lowered) .notOneWord
  check (!Text.blank response) .blankResponse
  check ((← contents).find server lowered).isNone (.taken lowered)
  let now ← takeTime
  let id ← takeId
  let c : Command := ⟨id, server, lowered, response, createdBy, some now, some now⟩
  alter fun s => s.put c
  return c

def edit (server : Int) (identifier response : Text) : Work Command := do
  let old ← known server identifier
  check (!Text.blank response) .blankResponse
  let undated := { old with response }
  alter fun s => s.put undated
  let now ← takeTime
  let c := { undated with updatedAt := some now }
  alter fun s => s.put c
  return c

def remove (server : Int) (identifier : Text) : Work Command := do
  let c ← known server identifier
  alter fun s => { s with commands := s.commands.filter fun d => d.id != c.id }
  return c

/-- The settings with an entry for a server, which is empty where there was none. -/
def entered (server : Int) (settings : List (Int × Option Text)) : List (Int × Option Text) :=
  if settings.any fun setting => setting.1 == server then settings else settings ++ [(server, none)]

def setPrefix (server : Int) (own : Text) : Work Text := do
  let cleaned := Text.strip own
  check (Contents.isWord cleaned) .badPrefix
  alter fun s => { s with prefixes := entered server s.prefixes }
  alter fun s => { s with prefixes := Contents.putPrefix server (some cleaned) s.prefixes }
  return cleaned

/-- A call that asks for a change. -/
inductive Order where
  | add (server : Int) (name response : Text) (createdBy : Option Int)
  | edit (server : Int) (identifier response : Text)
  | remove (server : Int) (identifier : Text)
  | setPrefix (server : Int) (own : Text)
deriving DecidableEq

/-- What a change gives back. -/
inductive Product where
  | command (c : Command)
  | ownPrefix (t : Text)

namespace Order

/-- The first part of an order: its checks, and the change in memory. -/
def start : Order → Work Product
  | add server name response createdBy => .command <$> Work.add server name response createdBy
  | edit server identifier response => .command <$> Work.edit server identifier response
  | remove server identifier => .command <$> Work.remove server identifier
  | setPrefix server own => .ownPrefix <$> Work.setPrefix server own

/-- A whole order, both parts at one go. -/
def whole (o : Order) : Work Product := do
  let made ← o.start
  save
  return made

end Order

/-! ### Many orders at a time -/

/-- The orders under way. `made` are all those that have changed the memory, in the order in which
they did, and `pending` those of them that have yet to write the file. -/
structure Desk where
  keeper : Keeper
  made : List Order
  pending : List Order

/-- What may happen next: a new order changes the memory, or one that is pending writes the file. -/
inductive Move where
  | start (o : Order)
  | save (i : Nat)

namespace Desk

def idle (k : Keeper) : Desk :=
  ⟨k, [], []⟩

/-- An order that is refused ends at once. -/
def move (d : Desk) : Move → Desk
  | .start o =>
    match o.start.outcome d.keeper with
    | (.ok _, k) => ⟨k, d.made ++ [o], d.pending ++ [o]⟩
    | (.error _, k) => { d with keeper := k }
  | .save i =>
    if i < d.pending.length then
      ⟨(Work.save.outcome d.keeper).2, d.made, d.pending.eraseIdx i⟩
    else d

def run (d : Desk) (moves : List Move) : Desk :=
  moves.foldl move d

end Desk

end Work

end ChatCommands
