import ChatCommands.Template.Block

/-!
The arena as it is edited from outside, with its offsets kept.

The lengths of the slots are summed up when an offset is first asked for, and the sums answer
every question until the next write, which drops them.
-/

namespace ChatCommands

/-- An arena, and the offsets of its slots where they were asked for since the last write. -/
structure Buffer where
  arena : Arena
  kept : Option (List Nat)
deriving DecidableEq

namespace Buffer

def ofArena (a : Arena) : Buffer :=
  ⟨a, none⟩

def ofText (t : Text) : Except Imbalance Buffer :=
  (Arena.ofText t).map ofArena

def text (b : Buffer) : Text :=
  b.arena.text

/-- The sums of the lengths of the first slots, for every number of them. -/
def sumsFrom (start : Nat) : List Slot → List Nat
  | [] => [start]
  | s :: rest => start :: sumsFrom (start + s.text.length) rest

/-- Where each slot begins and the last one ends, and the buffer that keeps this. -/
def offsets (b : Buffer) : List Nat × Buffer :=
  match b.kept with
  | some sums => (sums, b)
  | none =>
    let sums := sumsFrom 0 b.arena.slots
    (sums, { b with kept := some sums })

def length (b : Buffer) : Nat × Buffer :=
  let (sums, b) := b.offsets
  (sums.getLast?.getD 0, b)

def start (b : Buffer) (r : Region) : Nat × Buffer :=
  let (sums, b) := b.offsets
  (sums[r.first]?.getD 0, b)

def stop (b : Buffer) (r : Region) : Nat × Buffer :=
  let (sums, b) := b.offsets
  (sums[r.last + 1]?.getD 0, b)

/-- A region becomes `new`; also the change of length. -/
def replace (b : Buffer) (r : Region) (new : Text) : Int × Buffer :=
  let (stop, b) := b.stop r
  let (start, b) := b.start r
  ((new.length : Int) - ((stop : Int) - start), ofArena (b.arena.write r.first r.last new))

/-- Erasing the slots from number `first` to number `last`, unless one of them names no slot; also
the length between their edges. -/
def erase? (b : Buffer) (first last : Int) : Option (Int × Buffer) := do
  let (sums, b) := b.offsets
  let stop ← Arena.position? sums.length (last + 1)
  let start ← Arena.position? sums.length first
  let (_, next) ← b.arena.erase? first last
  return ((sums[stop]?.getD 0 : Int) - sums[start]?.getD 0, ofArena next)

def choose (b : Buffer) (block : Block) (condition : Bool) : Buffer :=
  ofArena (block.choose condition b.arena)

theorem length_eq (b : Buffer) : b.length = (b.offsets.1.getLast?.getD 0, b.offsets.2) := rfl

theorem start_eq (b : Buffer) (r : Region) :
    b.start r = (b.offsets.1[r.first]?.getD 0, b.offsets.2) := rfl

theorem stop_eq (b : Buffer) (r : Region) :
    b.stop r = (b.offsets.1[r.last + 1]?.getD 0, b.offsets.2) := rfl

theorem replace_eq (b : Buffer) (r : Region) (new : Text) :
    b.replace r new =
      ((new.length : Int) - (((b.stop r).1 : Int) - (b.offsets.2.start r).1),
        ofArena (b.offsets.2.offsets.2.arena.write r.first r.last new)) := rfl

end Buffer

end ChatCommands
