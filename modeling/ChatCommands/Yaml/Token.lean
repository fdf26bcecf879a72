import ChatCommands.Yaml.Lexeme
import ChatCommands.Yaml.Tag

/-!
The tokens of a YAML document.

Indentation becomes tokens that open and close blocks. A key is recognised only at the colon after
it, so each place where a key may begin gets a slot among the tokens, which is filled when the colon
is found and stays empty otherwise.
-/

namespace ChatCommands.Yaml

inductive Token where
  | directive (d : Directive)
  | documentStart
  | documentEnd
  | blockList
  | blockMap
  | blockEnd
  | flowList
  | flowListEnd
  | flowMap
  | flowMapEnd
  | entry
  | comma
  | key
  | value
  | alias (name : Text)
  | anchor (name : Text)
  | tag (name : TagName)
  | scalar (text : Text) (plain : Bool)
deriving DecidableEq

/-- A token, or a place where a key may begin. -/
inductive Piece where
  | token (t : Token)
  | slot (number : Nat)

/-- A key that waits for its colon. In a block it must come if nothing else fits there. -/
structure PendingKey where
  slot : Nat
  required : Bool
  mark : Mark

/-- The state of the scanner. The pieces stand in reverse order. `keys` holds the key that waits at
each level of brackets, the innermost first. -/
structure Scan where
  rest : List Mark
  pieces : List Piece
  filled : List (Nat × List Token)
  slots : Nat
  indent : Int
  indents : List Int
  keys : List (Option PendingKey)
  keyAllowed : Bool

namespace Scan

def start (t : Text) : Scan :=
  ⟨marks t, [], [], 0, -1, [], [none], true⟩

/-- Whether the scanner is inside brackets. -/
def inFlow (s : Scan) : Bool :=
  1 < s.keys.length

def push (s : Scan) (t : Token) : Scan :=
  { s with pieces := .token t :: s.pieces }

/-- The tokens, with the slots filled. -/
def tokens (s : Scan) : List Token :=
  s.pieces.reverse.flatMap fun
    | .token t => [t]
    | .slot n => (s.filled.lookup n).getD []

/-- The characters after blanks, comments and empty lines, and whether a line ended on the way. -/
def gap : Nat → List Mark → List Mark × Bool
  | 0, ms => (ms, false)
  | fuel + 1, ms =>
    let afterBlanks := skip (· == ' ') ms
    let line := if next (· == '#') afterBlanks then skip (!isBreak ·) afterBlanks else afterBlanks
    if next isBreak line then ((gap fuel (lineBreak line).2).1, true) else (line, false)

/-- Moves to the next token. After a break outside brackets a key may begin. -/
def toNext (s : Scan) : Scan :=
  let ms := match s.rest with
    | m :: rest => if m.index = 0 ∧ isOrderMark m.char then rest else m :: rest
    | [] => []
  let (rest, broken) := gap (ms.length + 1) ms
  { s with rest, keyAllowed := s.keyAllowed || (broken && !s.inFlow) }

/-- The farthest that a colon may be from the start of its key. -/
def keyReach : Nat := 1024

def refresh (m : Mark) : Option PendingKey → Except ReadError (Option PendingKey)
  | none => .ok none
  | some k =>
    if k.mark.line = m.line ∧ m.index - k.mark.index ≤ keyReach then .ok (some k)
    else if k.required then .error .malformed
    else .ok none

def refreshKeys (s : Scan) (m : Mark) : Except ReadError Scan :=
  (s.keys.mapM (refresh m)).map fun keys => { s with keys }

def dropKey (s : Scan) : Except ReadError Scan :=
  match s.keys with
  | some k :: outer =>
    if k.required then .error .malformed else .ok { s with keys := none :: outer }
  | _ => .ok s

def saveKey (s : Scan) (m : Mark) : Except ReadError Scan :=
  if !s.keyAllowed then .ok s
  else do
    let s ← s.dropKey
    let k : PendingKey := ⟨s.slots, !s.inFlow && s.indent == m.column, m⟩
    return { s with
      pieces := .slot s.slots :: s.pieces, slots := s.slots + 1, keys := some k :: s.keys.drop 1 }

/-- The indentation after the blocks that a column ends, with how many those are. -/
def closed (column : Int) : Int → List Int → Nat × Int × List Int
  | indent, [] => (0, indent, [])
  | indent, outer :: rest =>
    if indent ≤ column then (0, indent, outer :: rest)
    else
      let (n, i, is) := closed column outer rest
      (n + 1, i, is)

/-- Closes the blocks that are indented deeper than a column. -/
def closeBlocks (s : Scan) (column : Int) : Scan :=
  if s.inFlow then s
  else
    let (n, indent, indents) := closed column s.indent s.indents
    { s with
      pieces := List.replicate n (.token .blockEnd) ++ s.pieces, indent, indents }

/-- Opens a block at a column, unless it is open already. -/
def openBlock (s : Scan) (column : Int) : Bool × Scan :=
  if s.indent < column then
    (true, { s with indent := column, indents := s.indent :: s.indents })
  else (false, s)

def pushOpening (s : Scan) (column : Int) (opening : Token) : Scan :=
  let (opened, s) := s.openBlock column
  if opened then s.push opening else s

/-- The tokens between documents and the directives end all blocks. -/
def marker (s : Scan) (t : Token) (rest : List Mark) : Except ReadError Scan := do
  let s ← (s.closeBlocks (-1)).dropKey
  return { s.push t with keyAllowed := false, rest }

def openFlow (s : Scan) (m : Mark) (t : Token) (rest : List Mark) : Except ReadError Scan := do
  let s ← s.saveKey m
  return { s.push t with keys := none :: s.keys, keyAllowed := true, rest }

/-- A closing bracket. Outside brackets it is out of place. -/
def closeFlow (s : Scan) (t : Token) (rest : List Mark) : Except ReadError Scan :=
  if !s.inFlow then .error .malformed
  else do
    let s ← s.dropKey
    return { s.push t with keys := s.keys.drop 1, keyAllowed := false, rest }

def comma (s : Scan) (rest : List Mark) : Except ReadError Scan := do
  let s ← s.dropKey
  return { s.push .comma with keyAllowed := true, rest }

/-- A token that may only stand where a key may begin, and opens a block there. -/
def blockStarter (s : Scan) (m : Mark) (opening : Token) : Except ReadError Scan :=
  if s.inFlow then .ok s
  else if !s.keyAllowed then .error .malformed
  else .ok (s.pushOpening m.column opening)

def entry (s : Scan) (m : Mark) (rest : List Mark) : Except ReadError Scan := do
  let s ← (← s.blockStarter m .blockList).dropKey
  return { s.push .entry with keyAllowed := true, rest }

def explicitKey (s : Scan) (m : Mark) (rest : List Mark) : Except ReadError Scan := do
  let s ← (← s.blockStarter m .blockMap).dropKey
  return { s.push .key with keyAllowed := !s.inFlow, rest }

def colon (s : Scan) (m : Mark) (rest : List Mark) : Except ReadError Scan :=
  match s.keys with
  | some k :: outer =>
    let (opened, s) := if s.inFlow then (false, s) else s.openBlock k.mark.column
    let filling : List Token := if opened then [.blockMap, .key] else [.key]
    .ok { s.push .value with
      filled := (k.slot, filling) :: s.filled, keys := none :: outer, keyAllowed := false, rest }
  | _ => do
    let s ← s.blockStarter m .blockMap
    return { s.push .value with keyAllowed := !s.inFlow, rest }

def keyStarter (s : Scan) (m : Mark) (t : Token) (rest : List Mark) : Except ReadError Scan := do
  let s ← s.saveKey m
  return { s.push t with keyAllowed := false, rest }

/-- The name of an anchor or an alias, and what follows it. -/
def anchorName (ms : List Mark) : Except ReadError (Text × List Mark) :=
  let (name, rest) := run (fun c => c.isAlphanum || c == '-' || c == '_') ms
  if name.isEmpty then .error .malformed
  else if atBlank rest || next (fun c => "?:,]\x7d%@\x60".toList.contains c) rest then
    .ok (name, rest)
  else .error .malformed

def isIndicator (c : Char) : Bool :=
  "-?:,[]\x7b\x7d#&*!|>'\"%@\x60".toList.contains c

/-- Whether a plain scalar begins with a character, given what follows it. -/
def beginsPlain (flow : Bool) (c : Char) (rest : List Mark) : Bool :=
  (!isIndicator c && c != ' ' && c != '\t' && !isBreak c) ||
    (!atBlank rest && (c == '-' || (!flow && (c == '?' || c == ':'))))

def scalar (s : Scan) (m : Mark) (r : Except ReadError (Text × List Mark)) :
    Except ReadError Scan := do
  let s ← s.saveKey m
  let (t, rest) ← r
  return { s.push (.scalar t false) with keyAllowed := false, rest }

def plainScalar (s : Scan) (m : Mark) : Except ReadError Scan := do
  let s ← s.saveKey m
  let (t, broken, rest) := plain s.inFlow (s.indent + 1) s.rest
  return { s.push (.scalar t true) with keyAllowed := broken, rest }

def blockScalar (s : Scan) (fold : Bool) (rest : List Mark) : Except ReadError Scan := do
  let s ← s.dropKey
  let (t, after) ← block fold s.indent rest
  return { s.push (.scalar t false) with keyAllowed := true, rest := after }

/-- The next token, which begins with the given character. -/
def token (s : Scan) (m : Mark) (rest : List Mark) : Except ReadError Scan :=
  let c := m.char
  if c = '%' ∧ m.column = 0 then do
    let (d, after) ← Directive.scan rest
    s.marker (.directive d) after
  else if m.column = 0 ∧ isMarker '-' s.rest then s.marker .documentStart (rest.drop 2)
  else if m.column = 0 ∧ isMarker '.' s.rest then s.marker .documentEnd (rest.drop 2)
  else if c = '[' then s.openFlow m .flowList rest
  else if c = '\x7b' then s.openFlow m .flowMap rest
  else if c = ']' then s.closeFlow .flowListEnd rest
  else if c = '\x7d' then s.closeFlow .flowMapEnd rest
  else if c = ',' then s.comma rest
  else if c = '-' ∧ atBlank rest then s.entry m rest
  else if c = '?' ∧ (s.inFlow ∨ atBlank rest) then s.explicitKey m rest
  else if c = ':' ∧ (s.inFlow ∨ atBlank rest) then s.colon m rest
  else if c = '*' then do
    let (name, after) ← anchorName rest
    s.keyStarter m (.alias name) after
  else if c = '&' then do
    let (name, after) ← anchorName rest
    s.keyStarter m (.anchor name) after
  else if c = '!' then do
    let (name, after) ← TagName.scan rest
    s.keyStarter m (.tag name) after
  else if c = '|' ∧ !s.inFlow then s.blockScalar false rest
  else if c = '>' ∧ !s.inFlow then s.blockScalar true rest
  else if c = '\x27' then s.scalar m (quoted false rest)
  else if c = '\x22' then s.scalar m (quoted true rest)
  else if beginsPlain s.inFlow c rest then s.plainScalar m
  else .error .malformed

/-- The tokens that are certain: those in front of the first key that still waits for its colon. -/
def certain (s : Scan) : List Token :=
  match (s.keys.reverse.filterMap id).head? with
  | none => s.tokens
  | some k =>
    let before := s.pieces.reverse.takeWhile fun
      | .slot n => n != k.slot
      | .token _ => true
    { s with pieces := before.reverse }.tokens

/-- Scans up to the end. The fuel is the number of characters, of which every token takes one. A
failure that is not of the form of the document leaves the tokens that are certain before it. -/
def all : Nat → Scan → Except ReadError (List Token × Option Crash)
  | 0, s => .ok (s.tokens, none)
  | fuel + 1, s =>
    let here := s.toNext
    match here.rest with
    | [] => do
      let final ← (here.closeBlocks (-1)).dropKey
      return (final.tokens, none)
    | m :: rest => do
      let earlier ← match s.rest with
        | [] => .ok s
        | first :: _ => s.refreshKeys first
      let here ← here.refreshKeys m
      match (here.closeBlocks m.column).token m rest with
      | .ok s => all fuel s
      | .error (.crash c) => return (earlier.certain, some c)
      | .error .malformed => .error .malformed

end Scan

/-- The tokens of a document, and the failure that ends them early, if any. -/
def Token.scan (t : Text) : Except ReadError (List Token × Option Crash) :=
  if !t.all isAllowed then .error .malformed
  else Scan.all (t.length + 1) (Scan.start t)

end ChatCommands.Yaml
