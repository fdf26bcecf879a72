import ChatCommands.Yaml.Plain
import ChatCommands.Yaml.Token

/-!
The nodes of a YAML document: scalars, lists and maps, each with its kind.

Nodes are known by number, so an alias is the node itself that it names, and a node may lie inside
itself.
-/

namespace ChatCommands.Yaml

inductive Content where
  | scalar (t : Text)
  | list (items : List Nat)
  | map (pairs : List (Nat × Nat))
deriving DecidableEq

structure Node where
  tag : Tag
  content : Content
deriving DecidableEq

abbrev Graph := List Node

namespace Graph

def tagOf (g : Graph) (n : Nat) : Tag :=
  (g[n]?.map Node.tag).getD .other

/-- The content of a node. A number without a node counts as an empty scalar. -/
def contentOf (g : Graph) (n : Nat) : Content :=
  (g[n]?.map Node.content).getD (.scalar [])

def setContent (g : Graph) (n : Nat) (c : Content) : Graph :=
  g.modify n fun node => { node with content := c }

def setTag (g : Graph) (n : Nat) (tag : Tag) : Graph :=
  g.modify n fun node => { node with tag }

end Graph

/-- The state of the parser: the tokens to come and what ends them early, the handles of tags, the
nodes so far, and their names. -/
structure Parse where
  tokens : List Token
  failure : Option Crash
  handles : List (Text × Text)
  nodes : Graph
  anchors : List (Text × Nat)

abbrev Parser := StateT Parse (Except ReadError)

namespace Parser

def fail : Parser α :=
  throw .malformed

/-- The next token, none at the end of the document. -/
def peek : Parser (Option Token) := do
  let p ← get
  match p.tokens, p.failure with
  | [], some c => throw (.crash c)
  | ts, _ => return ts.head?

/-- Whether one of some tokens comes next. The end counts as none. -/
def isNext (ts : List Token) : Parser Bool := do
  return (← peek).any ts.contains

def advance : Parser Unit :=
  modify fun p => { p with tokens := p.tokens.drop 1 }

def take? (t : Token) : Parser Bool := do
  if ← isNext [t] then
    advance
    return true
  else return false

def expect (t : Token) : Parser Unit := do
  if !(← take? t) then fail

def tag? : Parser (Option TagName) := do
  match ← peek with
  | some (.tag name) =>
    advance
    return some name
  | _ => return none

def anchor? : Parser (Option Text) := do
  match ← peek with
  | some (.anchor name) =>
    advance
    return some name
  | _ => return none

/-- The name and the tag in front of a node, in either order. -/
def properties : Parser (Option Text × Option TagName) := do
  match ← anchor? with
  | some a => return (some a, ← tag?)
  | none =>
    match ← tag? with
    | some t => return (← anchor?, some t)
    | none => return (none, none)

/-- The full name of a tag, unless it leaves the kind open. -/
def fullName (tag : Option TagName) : Parser (Option Text) := do
  match tag with
  | none => return none
  | some ⟨none, suffix⟩ => return some suffix
  | some ⟨some handle, suffix⟩ =>
    match (← get).handles.lookup handle with
    | some start => return some (start ++ suffix)
    | none => fail

/-- The kind of a scalar. Without a name of a kind, a plain text shows its own. -/
def scalarTag (name : Option Text) (plain : Bool) (t : Text) : Tag :=
  match name with
  | none => if plain then Plain.tag t else .text
  | some n => if n = TagName.untold then Plain.tag t else .ofName n

def collectionTag (name : Option Text) (usual : Tag) : Tag :=
  match name with
  | none => usual
  | some n => if n = TagName.untold then usual else .ofName n

/-- Adds a node with its name. No two nodes have the same name. -/
def add (anchor : Option Text) (node : Node) : Parser Nat := do
  let p ← get
  let number := p.nodes.length
  match anchor with
  | none => set { p with nodes := p.nodes ++ [node] }
  | some a =>
    if (p.anchors.lookup a).isSome then fail
    else set { p with nodes := p.nodes ++ [node], anchors := (a, number) :: p.anchors }
  return number

def fill (number : Nat) (c : Content) : Parser Nat := do
  modify fun p => { p with nodes := p.nodes.setContent number c }
  return number

def empty : Parser Nat :=
  add none ⟨.null, .scalar []⟩

mutual
/-- A node. In a block it may be a block itself; after a key a list needs no indentation. -/
def node (block unindented : Bool) : Nat → Parser Nat
  | 0 => fail
  | fuel + 1 => do
    match ← peek with
    | some (.alias a) =>
      advance
      match (← get).anchors.lookup a with
      | some n => return n
      | none => fail
    | _ =>
      let (anchor, written) ← properties
      let name ← fullName written
      match ← peek with
      | some (.scalar t plain) =>
        advance
        add anchor ⟨scalarTag name plain t, .scalar t⟩
      | some .flowList =>
        let n ← add anchor ⟨collectionTag name .list, .list []⟩
        advance
        fill n (.list (← flowItems true fuel))
      | some .flowMap =>
        let n ← add anchor ⟨collectionTag name .map, .map []⟩
        advance
        fill n (.map (← flowPairs true fuel))
      | next =>
        if unindented && next == some .entry then
          let n ← add anchor ⟨collectionTag name .list, .list []⟩
          fill n (.list (← entries true fuel))
        else if block && next == some .blockList then
          let n ← add anchor ⟨collectionTag name .list, .list []⟩
          advance
          let items ← entries false fuel
          expect .blockEnd
          fill n (.list items)
        else if block && next == some .blockMap then
          let n ← add anchor ⟨collectionTag name .map, .map []⟩
          advance
          let pairs ← blockPairs fuel
          expect .blockEnd
          fill n (.map pairs)
        else if anchor.isSome || name.isSome then add anchor ⟨scalarTag name true [], .scalar []⟩
        else fail

/-- The items of a block list, each after a dash. -/
def entries (unindented : Bool) : Nat → Parser (List Nat)
  | 0 => fail
  | fuel + 1 => do
    if ← take? .entry then
      let stops : List Token :=
        if unindented then [.entry, .key, .value, .blockEnd] else [.entry, .blockEnd]
      let item ← if ← isNext stops then empty else node true false fuel
      return item :: (← entries unindented fuel)
    else return []

def blockPairs : Nat → Parser (List (Nat × Nat))
  | 0 => fail
  | fuel + 1 => do
    let stops : List Token := [.key, .value, .blockEnd]
    if ← take? .key then
      let k ← if ← isNext stops then empty else node true true fuel
      let v ←
        if ← take? .value then
          if ← isNext stops then empty else node true true fuel
        else empty
      return (k, v) :: (← blockPairs fuel)
    else return []

/-- A pair in brackets after the sign of its key, where `ending` closes the brackets. -/
def flowPair (ending : Token) : Nat → Parser (Nat × Nat)
  | 0 => fail
  | fuel + 1 => do
    let k ← if ← isNext [.value, .comma, ending] then empty else node false false fuel
    let v ←
      if ← take? .value then
        if ← isNext [.comma, ending] then empty else node false false fuel
      else empty
    return (k, v)

/-- The items of a list in brackets. A pair among them is a map of its own. -/
def flowItems (first : Bool) : Nat → Parser (List Nat)
  | 0 => fail
  | fuel + 1 => do
    if ← take? .flowListEnd then return []
    else
      if !first then expect .comma
      if ← take? .flowListEnd then return []
      else
        let item ←
          if ← take? .key then do
            let n ← add none ⟨.map, .map []⟩
            let pair ← flowPair .flowListEnd fuel
            fill n (.map [pair])
          else node false false fuel
        return item :: (← flowItems false fuel)

def flowPairs (first : Bool) : Nat → Parser (List (Nat × Nat))
  | 0 => fail
  | fuel + 1 => do
    if ← take? .flowMapEnd then return []
    else
      if !first then expect .comma
      if ← take? .flowMapEnd then return []
      else
        let pair ←
          if ← take? .key then flowPair .flowMapEnd fuel
          else do
            let k ← node false false fuel
            pure (k, ← empty)
        return pair :: (← flowPairs false fuel)
end

def skipAll (t : Token) : Nat → Parser Unit
  | 0 => return
  | fuel + 1 => do
    if ← take? t then skipAll t fuel

/-- What the handles stand for unless a directive says otherwise. -/
def usualHandles : List (Text × Text) := [(['!'], ['!']), (['!', '!'], Tag.core)]

/-- The handles that the directives in front of a document set. There may be one version, which
must be of the first kind, and each handle is set once. -/
def directives (versioned : Bool) (handles : List (Text × Text)) : Nat → Parser (List (Text × Text))
  | 0 => fail
  | fuel + 1 => do
    match ← peek with
    | some (.directive d) =>
      advance
      match d with
      | .version major =>
        if versioned || major != 1 then fail else directives true handles fuel
      | .handle h start =>
        if (handles.lookup h).isSome then fail
        else directives versioned ((h, start) :: handles) fuel
      | .unknown => directives versioned handles fuel
    | _ => return handles

/-- Whether a document begins with a directive or with its sign. -/
def isMarked (next : Option Token) : Bool :=
  match next with
  | some (.directive _) | some .documentStart => true
  | _ => false

/-- A document with directives or with its sign, after which it may be empty. -/
def markedDocument (fuel : Nat) : Parser Nat := do
  let handles ← directives false [] fuel
  modify fun p => { p with handles := handles ++ usualHandles }
  expect .documentStart
  let next ← peek
  if next.isNone || isMarked next || next == some .documentEnd then empty
  else node true false fuel

/-- The only document of a stream, none where there is nothing. -/
def document (fuel : Nat) : Parser (Option Nat) := do
  let next ← peek
  if next.isNone then return none
  else
    let root ← if isMarked next then markedDocument fuel else node true false fuel
    skipAll .documentEnd fuel
    if (← peek).isNone then return some root
    else
      let _ ← directives false [] fuel
      let _ ← peek
      fail

end Parser

/-- The nodes of a text and the number of the outermost one, none where the text holds no
document. -/
def Graph.ofText? (t : Text) : Except ReadError (Option (Nat × Graph)) := do
  let (tokens, failure) ← Token.scan t
  let start : Parse := ⟨tokens, failure, Parser.usualHandles, [], []⟩
  let (root, final) ← (Parser.document (2 * tokens.length + 2)).run start
  return root.map fun n => (n, final.nodes)

end ChatCommands.Yaml
