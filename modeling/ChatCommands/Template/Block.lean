import ChatCommands.Template.Arena
import ChatCommands.Template.Instruction

/-!
Conditional blocks: `if`, an optional `else`, and `fi`.

Only spans with the same parent can belong to one block. Within such a group an `else` or `fi`
belongs to the nearest `if` that is still open, so blocks nest. Choosing a branch erases the
markers and the other branch.
-/

namespace ChatCommands

/-- The keywords that bound a block. -/
inductive Marker where
  | opens
  | divides
  | closes
deriving DecidableEq

def Marker.ofKeyword? (keyword : Text) : Option Marker :=
  if keyword = "if".toList then some .opens
  else if keyword = "else".toList then some .divides
  else if keyword = "fi".toList then some .closes
  else none

/-- What is wrong with a marker. -/
inductive Misplaced where
  | strayElse
  | secondElse
  | strayFi
  | missingFi
deriving DecidableEq

/-- Why a template cannot be resolved at all. -/
inductive ParseError where
  | unbalanced (fault : Imbalance)
  | misplaced (fault : Misplaced) (marker : Text) (position : Nat)
deriving DecidableEq

/-- An `if` with its `fi`, and its `else` where it has one. -/
structure Block where
  opener : Region
  divider : Option Region
  closer : Region
deriving DecidableEq

namespace Block

/-- The error for a marker, with its text and place. -/
def misplaced (a : Arena) (fault : Misplaced) (r : Region) : ParseError :=
  .misplaced fault (a.regionText r) (a.start r)

/-- The blocks of one group of siblings in the order of closing. `pending` are the open ones,
innermost first, each with its `else`. -/
def ofSiblings (a : Arena) (pending : List (Region × Option Region)) :
    List (Region × Marker) → Except ParseError (List Block)
  | [] =>
    match pending with
    | [] => .ok []
    | (opener, _) :: _ => .error (misplaced a .missingFi opener)
  | (r, .opens) :: rest => ofSiblings a ((r, none) :: pending) rest
  | (r, .divides) :: rest =>
    match pending with
    | [] => .error (misplaced a .strayElse r)
    | (_, some _) :: _ => .error (misplaced a .secondElse r)
    | (opener, none) :: outer => ofSiblings a ((opener, some r) :: outer) rest
  | (r, .closes) :: rest =>
    match pending with
    | [] => .error (misplaced a .strayFi r)
    | (opener, divider) :: outer => do
      let others ← ofSiblings a outer rest
      return ⟨opener, divider, r⟩ :: others

def markers (a : Arena) : List (Region × Marker) :=
  a.live.filterMap fun r =>
    (Marker.ofKeyword? (Instruction.decode (a.regionText r)).keyword).map (r, ·)

/-- The parents of markers, each once, in the order of their first marker. -/
def parents (found : List (Region × Marker)) : List (Option Nat) :=
  (found.map fun m => m.1.parent).eraseDups

/-- The blocks of a template, group by group. -/
def matchAll (a : Arena) : Except ParseError (List Block) := do
  let found := markers a
  let groups ← (parents found).mapM fun parent =>
    ofSiblings a [] (found.filter fun m => m.1.parent == parent)
  return groups.flatten

def choose (b : Block) (condition : Bool) (a : Arena) : Arena :=
  match condition, b.divider with
  | true, some divider =>
    ((a.erase divider.first b.closer.last).2.erase b.opener.first b.opener.last).2
  | true, none =>
    ((a.erase b.closer.first b.closer.last).2.erase b.opener.first b.opener.last).2
  | false, some divider =>
    ((a.erase b.closer.first b.closer.last).2.erase b.opener.first divider.last).2
  | false, none => (a.erase b.opener.first b.closer.last).2

end Block

def Block.ofText (t : Text) : Except ParseError (Arena × List Block) := do
  let a ← (Arena.ofText t).mapError .unbalanced
  let blocks ← matchAll a
  return (a, blocks)

end ChatCommands
