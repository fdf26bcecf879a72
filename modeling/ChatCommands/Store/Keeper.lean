import ChatCommands.Store.File

/-!
A store with the supply of ids and times for its changes.

An id and a time are taken only by a change that is made: adding a command takes one of each,
editing one takes a time.
-/

namespace ChatCommands

/-- The ids and times to come, and how many have been taken. -/
structure Supply where
  id : Nat → Text
  time : Nat → Instant
  ids : Nat
  times : Nat

namespace Supply

def nextId (s : Supply) : Text :=
  s.id s.ids

def now (s : Supply) : Instant :=
  s.time s.times

end Supply

structure Keeper where
  store : Store
  supply : Supply

namespace Keeper

abbrev contents (k : Keeper) : Contents :=
  k.store.contents

/-- The outcome of a change and the keeper after it, which is the same where it is refused. -/
def settle (k : Keeper) (supply : Supply) (r : Except StoreError (α × Store)) :
    Except StoreError α × Keeper :=
  match r with
  | .ok (a, store) => (.ok a, ⟨store, supply⟩)
  | .error e => (.error e, k)

def add (k : Keeper) (server : Int) (name response : Text) (createdBy : Option Int) :
    Except StoreError Command × Keeper :=
  k.settle { k.supply with ids := k.supply.ids + 1, times := k.supply.times + 1 }
    (k.store.add server name response createdBy k.supply.nextId k.supply.now)

def edit (k : Keeper) (server : Int) (identifier response : Text) :
    Except StoreError Command × Keeper :=
  k.settle { k.supply with times := k.supply.times + 1 }
    (k.store.edit server identifier response k.supply.now)

def remove (k : Keeper) (server : Int) (identifier : Text) :
    Except StoreError Command × Keeper :=
  k.settle k.supply (k.store.remove server identifier)

def setPrefix (k : Keeper) (server : Int) (own : Text) : Except StoreError Text × Keeper :=
  k.settle k.supply (k.store.setPrefix server own)

end Keeper

end ChatCommands
