import ChatCommands.Yaml.Atom
import ChatCommands.Yaml.Node

/-!
What the nodes of a document hold.

A scalar holds its value at once. A list or a map is filled in its turn, the outer ones first, so
that it may lie inside itself. The keys of a map are scalars. The pairs of other maps that a map
takes over stand in front of its own.
-/

namespace ChatCommands.Yaml

/-- What a node holds, parts by their numbers. -/
inductive Held where
  | atom (a : Atom)
  | list (items : List Nat)
  | map (pairs : List (Atom × Nat))
  | set (members : List Atom)
  | pairs (items : List (Nat × Nat))
deriving DecidableEq

/-- The state while nodes are filled. The collections in `waiting` are begun and not filled. -/
structure Fill where
  graph : Graph
  held : List (Nat × Held)
  waiting : List Nat

abbrev Filler := StateT Fill (Except ReadError)

namespace Filler

def fail : Filler α :=
  throw .malformed

def graph : Filler Graph := do
  return (← get).graph

def hold (n : Nat) (h : Held) : Filler Unit :=
  modify fun s => { s with held := (n, h) :: s.held }

def pairsOf (n : Nat) : Filler (List (Nat × Nat)) := do
  match (← graph).contentOf n with
  | .map pairs => return pairs
  | _ => fail

def setPairs (n : Nat) (pairs : List (Nat × Nat)) : Filler Unit :=
  modify fun s => { s with graph := s.graph.setContent n (.map pairs) }

/-- The text of a scalar. A map stands for the value of its default key. -/
def textOf (g : Graph) : Nat → Nat → Option Text
  | 0, _ => none
  | fuel + 1, n =>
    match g.contentOf n with
    | .scalar t => some t
    | .list _ => none
    | .map pairs =>
      (pairs.find? fun p => g.tagOf p.1 == .default).bind fun p => textOf g fuel p.2

def atomOf (g : Graph) (n : Nat) : Except ReadError Atom :=
  match textOf g (g.length + 1) n with
  | none => .error .malformed
  | some t =>
    match g.tagOf n, g.contentOf n with
    | .timestamp, .map _ => .error (.crash .wrongKind)
    | tag, _ => Atom.ofText tag t

/-- What a collection holds before it is filled, if its kind is that of a collection. -/
def unfilled? : Tag → Option Held
  | .list => some (.list [])
  | .map => some (.map [])
  | .set => some (.set [])
  | .ordered | .pairs => some (.pairs [])
  | _ => none

/-- Begins a node, unless that was done before. -/
def begin (n : Nat) : Filler Unit := do
  let s ← get
  if (s.held.lookup n).isNone then
    match unfilled? (s.graph.tagOf n) with
    | some h => set { s with held := (n, h) :: s.held, waiting := s.waiting ++ [n] }
    | none =>
      match atomOf s.graph n with
      | .ok a => hold n (.atom a)
      | .error e => throw e

/-- The pairs that a map takes over from a node: those of a map, or of the maps in a list, the last
one first. -/
def taken (flatten : Nat → Filler Unit) (n : Nat) : Filler (List (Nat × Nat)) := do
  let flattened (m : Nat) : Filler (List (Nat × Nat)) := do
    let _ ← pairsOf m
    flatten m
    pairsOf m
  match (← graph).contentOf n with
  | .map _ => flattened n
  | .list items => return (← items.mapM flattened).reverse.flatten
  | .scalar _ => fail

/-- Removes the merge keys of a map from place `index` on, and gives the pairs that they stand for.
A default key becomes a text. -/
def mergedFrom (flatten : Nat → Filler Unit) (n : Nat) : Nat → Nat → Filler (List (Nat × Nat))
  | 0, _ => return []
  | fuel + 1, index => do
    let pairs ← pairsOf n
    match pairs[index]? with
    | none => return []
    | some (k, v) =>
      match (← graph).tagOf k with
      | .merge =>
        setPairs n (pairs.eraseIdx index)
        let here ← taken flatten v
        return here ++ (← mergedFrom flatten n fuel index)
      | .default =>
        modify fun s => { s with graph := s.graph.setTag k .text }
        mergedFrom flatten n fuel (index + 1)
      | _ => mergedFrom flatten n fuel (index + 1)

/-- Replaces the merge keys of a map by the pairs that they stand for. Every step inwards is made at
a merge key that is then gone, which bounds their number. -/
def flatten : Nat → Nat → Filler Unit
  | 0, _ => return
  | fuel + 1, n => do
    let merged ← mergedFrom (flatten fuel) n (← pairsOf n).length 0
    setPairs n (merged ++ (← pairsOf n))

def pairCount (g : Graph) : Nat :=
  g.foldl (fun count node =>
    match node.content with
    | .map pairs => count + pairs.length
    | _ => count) 0

/-- Sets the value of a key: a key that is there keeps its place. -/
def setKey (k : Atom) (v : Nat) : List (Atom × Nat) → List (Atom × Nat)
  | [] => [(k, v)]
  | (l, w) :: rest => if l.same k then (l, v) :: rest else (l, w) :: setKey k v rest

/-- The keys and values of pairs. A key must be a scalar. -/
def entriesOf (known : List (Atom × Nat)) : List (Nat × Nat) → Filler (List (Atom × Nat))
  | [] => return known
  | (k, v) :: rest => do
    begin k
    match (← get).held.lookup k with
    | some (.atom key) =>
      begin v
      entriesOf (setKey key v known) rest
    | _ => fail

/-- The entries of a map, its merge keys replaced. -/
def mapOf (n : Nat) : Filler (List (Atom × Nat)) := do
  let _ ← pairsOf n
  flatten (pairCount (← graph) + 1) n
  entriesOf [] (← pairsOf n)

def onlyPair (n : Nat) : Filler (Nat × Nat) := do
  match ← pairsOf n with
  | [(k, v)] =>
    begin k
    begin v
    return (k, v)
  | _ => fail

def fill (n : Nat) : Filler Unit := do
  let g ← graph
  match g.tagOf n, g.contentOf n with
  | .list, .list items =>
    items.forM begin
    hold n (.list items)
  | .ordered, .list items | .pairs, .list items => hold n (.pairs (← items.mapM onlyPair))
  | .map, .map _ => hold n (.map (← mapOf n))
  | .set, .map _ => hold n (.set ((← mapOf n).map Prod.fst))
  | _, _ => fail

/-- Fills the collections that wait, and those that come to wait meanwhile, in their order. Each
node waits once at most. -/
def fillAll : Nat → Filler Unit
  | 0 => return
  | fuel + 1 => do
    let s ← get
    match s.waiting with
    | [] => return
    | n :: rest =>
      set { s with waiting := rest }
      fill n
      fillAll fuel

end Filler

/-- What the nodes of a document hold, given the outermost one. -/
def Graph.held (g : Graph) (root : Nat) : Except ReadError (List (Nat × Held)) := do
  let steps : Filler Unit := do
    Filler.begin root
    Filler.fillAll (g.length + 1)
  let (_, final) ← steps.run ⟨g, [], []⟩
  return final.held

end ChatCommands.Yaml
