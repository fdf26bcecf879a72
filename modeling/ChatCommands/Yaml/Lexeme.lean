import ChatCommands.Yaml.Mark

/-!
The scalars of a YAML document as they are written: plain, in quotation marks, and as blocks.

Each reader takes the characters from the start of the scalar and gives its text and the characters
after it. Lines are folded: a single break becomes a blank.
-/

namespace ChatCommands.Yaml

def before (t : Text) (r : Except ReadError (Text × List Mark)) :
    Except ReadError (Text × List Mark) :=
  r.map fun (u, rest) => (t ++ u, rest)

/-! Plain scalars. -/

def isFlowMark (c : Char) : Bool :=
  c == ',' || c == '[' || c == ']' || c == '\x7b' || c == '\x7d'

/-- Whether a colon here ends a plain scalar, given what follows it. -/
def endsAtColon (flow : Bool) (rest : List Mark) : Bool :=
  atBlank rest || (flow && next isFlowMark rest)

/-- A part of a plain scalar without blanks, and what follows it. -/
def plainPart (flow : Bool) : List Mark → Text × List Mark
  | [] => ([], [])
  | m :: rest =>
    if m.char == ' ' || m.char == '\t' || isBreak m.char ||
        (m.char == ':' && endsAtColon flow rest) ||
        (flow && (isFlowMark m.char || m.char == '?')) then
      ([], m :: rest)
    else
      let (t, after) := plainPart flow rest
      (m.char :: t, after)

/-- The breaks after the first one in a plain scalar, and what follows them, unless a document ends
there. The fuel is the number of characters. -/
def plainBreaks : Nat → List Mark → Option Text × List Mark
  | 0, ms => (some [], ms)
  | fuel + 1, ms =>
    if next (· == ' ') ms then plainBreaks fuel (ms.drop 1)
    else if next isBreak ms then
      let (t, rest) := lineBreak ms
      if atMarker rest then (none, rest)
      else
        let (more, after) := plainBreaks fuel rest
        (more.map (t ++ ·), after)
    else (some [], ms)

/-- What lies between two parts of a plain scalar. -/
structure Gap where
  text : Text
  broken : Bool
  rest : List Mark

def plainGap (ms : List Mark) : Gap :=
  let (blanks, rest) := run (· == ' ') ms
  if next isBreak rest then
    let (first, after) := lineBreak rest
    if atMarker after then ⟨[], true, after⟩
    else
      match plainBreaks after.length after with
      | (none, last) => ⟨[], true, last⟩
      | (some breaks, last) => ⟨folded first breaks, true, last⟩
  else ⟨blanks, false, rest⟩

/-- A plain scalar whose further lines are indented by at least `indent`, whether it was broken
over lines, and what follows it. -/
def plainFrom (flow : Bool) (indent : Int) (gap : Text) (broken : Bool) :
    Nat → List Mark → Text × Bool × List Mark
  | 0, ms => ([], broken, ms)
  | fuel + 1, ms =>
    let (part, rest) := if next (· == '#') ms then ([], ms) else plainPart flow ms
    if part.isEmpty then ([], broken, ms)
    else
      let g := plainGap rest
      let outside := !flow && g.rest.head?.any fun m => (m.column : Int) < indent
      if g.text.isEmpty || next (· == '#') g.rest || outside then
        (gap ++ part, g.broken, g.rest)
      else
        let (t, b, after) := plainFrom flow indent g.text g.broken fuel g.rest
        (gap ++ part ++ t, b, after)

def plain (flow : Bool) (indent : Int) (ms : List Mark) : Text × Bool × List Mark :=
  plainFrom flow indent [] false (ms.length + 1) ms

/-! Scalars in quotation marks. -/

/-- The breaks after the first one in quotation marks, and what follows them. -/
def quotedBreaks : Nat → List Mark → Except ReadError (Text × List Mark)
  | 0, ms => .ok ([], ms)
  | fuel + 1, ms =>
    if atMarker ms then .error .malformed
    else
      let rest := skip (fun c => c == ' ' || c == '\t') ms
      if next isBreak rest then
        let (t, after) := lineBreak rest
        before t (quotedBreaks fuel after)
      else .ok ([], rest)

/-- The characters that a backslash and a letter stand for. -/
def escapes : List (Char × Char) := [
  ('0', '\x00'), ('a', '\x07'), ('b', '\x08'), ('t', '\x09'), ('\t', '\x09'), ('n', '\x0a'),
  ('v', '\x0b'), ('f', '\x0c'), ('r', '\x0d'), ('e', '\x1b'), (' ', ' '), ('\x22', '\x22'),
  ('\\', '\\'), ('/', '/'), ('N', '\x85'), ('_', '\xa0'), ('L', '\u2028'), ('P', '\u2029')]

def escapeWidth? (c : Char) : Option Nat :=
  if c = 'x' then some 2 else if c = 'u' then some 4 else if c = 'U' then some 8 else none

/-- The largest number that a machine word with a sign holds. -/
def wordLimit : Nat := 0x7fffffff

def hexChar (t : Text) : Except ReadError Char :=
  match t.mapM hexDigit? with
  | none => .error .malformed
  | some digits =>
    let code := digits.foldl (fun n d => 16 * n + d) 0
    if wordLimit < code then .error (.crash .characterTooLarge)
    else if 0x10ffff < code then .error (.crash .notANumeral)
    else .ok (Char.ofNat code)

/-- What a backslash in double marks and the characters after it stand for, and what follows. -/
def escaped : List Mark → Except ReadError (Text × List Mark)
  | [] => .error .malformed
  | m :: rest =>
    match escapes.lookup m.char with
    | some c => .ok ([c], rest)
    | none =>
      match escapeWidth? m.char with
      | some width =>
        if rest.length < width then .error .malformed
        else (hexChar (textOf (rest.take width))).map fun c => ([c], rest.drop width)
      | none =>
        if isBreak m.char then
          let (_, after) := lineBreak (m :: rest)
          quotedBreaks (after.length + 1) after
        else .error .malformed

/-- What blanks and breaks in quotation marks become, and what follows. -/
def quotedGap (ms : List Mark) : Except ReadError (Text × List Mark) :=
  let (blanks, rest) := run (fun c => c == ' ' || c == '\t') ms
  if rest.isEmpty then .error .malformed
  else if next isBreak rest then
    let (first, after) := lineBreak rest
    (quotedBreaks (after.length + 1) after).map fun (breaks, last) => (folded first breaks, last)
  else .ok (blanks, rest)

/-- The rest of a scalar in quotation marks, and what follows it. -/
def quotedFrom (double : Bool) : Nat → List Mark → Except ReadError (Text × List Mark)
  | 0, _ => .error .malformed
  | _ + 1, [] => .error .malformed
  | fuel + 1, m :: rest =>
    if m.char == (if double then '\x22' else '\x27') then
      if !double && next (· == '\x27') rest then
        before ['\x27'] (quotedFrom double fuel (rest.drop 1))
      else .ok ([], rest)
    else if atBlank (m :: rest) then do
      let (gap, after) ← quotedGap (m :: rest)
      before gap (quotedFrom double fuel after)
    else if double && m.char == '\\' then do
      let (t, after) ← escaped rest
      before t (quotedFrom double fuel after)
    else before [m.char] (quotedFrom double fuel rest)

/-- A scalar in quotation marks, from after its first mark. -/
def quoted (double : Bool) (ms : List Mark) : Except ReadError (Text × List Mark) :=
  quotedFrom double (ms.length + 1) ms

/-! Blocks. -/

/-- What becomes of the breaks at the end of a block. -/
inductive Chomping where
  | strip
  | clip
  | keep
deriving DecidableEq

structure BlockHeader where
  chomping : Chomping
  increment : Option Nat

def chomping? (ms : List Mark) : Chomping × List Mark :=
  if next (· == '+') ms then (.keep, ms.drop 1)
  else if next (· == '-') ms then (.strip, ms.drop 1)
  else (.clip, ms)

def increment? (ms : List Mark) : Except ReadError (Option Nat × List Mark) :=
  match ms with
  | [] => .ok (none, [])
  | m :: rest =>
    if !m.char.isDigit then .ok (none, m :: rest)
    else if m.char = '0' then .error .malformed
    else .ok (some (m.char.toNat - 48), rest)

/-- The marks after the sign of a block, in either order, and the rest of its line. -/
def blockHeader (ms : List Mark) : Except ReadError (BlockHeader × List Mark) := do
  let (early, afterEarly) := chomping? ms
  let (increment, afterIncrement) ← increment? afterEarly
  let (chomping, rest) :=
    if early = .clip ∧ increment.isSome then chomping? afterIncrement else (early, afterIncrement)
  if !(atLineEnd rest || next (· == ' ') rest) then .error .malformed
  else
    let comment := skip (· == ' ') rest
    let line := if next (· == '#') comment then skip (!isBreak ·) comment else comment
    if atLineEnd line then .ok (⟨chomping, increment⟩, (lineBreak line).2)
    else .error .malformed

/-- The empty lines at the start of a block, the widest indentation of their blanks, and what
follows. -/
def blockStart : Nat → Nat → List Mark → Text × Nat × List Mark
  | 0, widest, ms => ([], widest, ms)
  | fuel + 1, widest, ms =>
    match ms with
    | [] => ([], widest, [])
    | m :: rest =>
      if m.char = ' ' then blockStart fuel (if m.column < widest then widest else m.column + 1) rest
      else if isBreak m.char then
        let (t, after) := lineBreak (m :: rest)
        let (u, w, last) := blockStart fuel widest after
        (t ++ u, w, last)
      else ([], widest, m :: rest)

def unindented (indent : Nat) (ms : List Mark) : List Mark :=
  ms.dropWhile fun m => m.char == ' ' && m.column < indent

/-- The empty lines inside a block, and what follows them. -/
def blockBreaks (indent : Nat) : Nat → List Mark → Text × List Mark
  | 0, ms => ([], ms)
  | fuel + 1, ms =>
    let rest := unindented indent ms
    if next isBreak rest then
      let (t, after) := lineBreak rest
      let (u, last) := blockBreaks indent fuel after
      (t ++ u, last)
    else ([], rest)

/-- Whether a line of a block begins here. -/
def inBlock (indent : Nat) (ms : List Mark) : Bool :=
  ms.head?.any fun m => m.column == indent

/-- Whether a line begins with a character that is not blank. -/
def startsDark (ms : List Mark) : Bool :=
  !next (fun c => c == ' ' || c == '\t') ms

/-- The lines of a block after some breaks, with the last break and the breaks after it apart. -/
def blockLines (fold : Bool) (indent : Nat) (breaks : Text) :
    Nat → List Mark → Text × Text × Text × List Mark
  | 0, ms => ([], [], breaks, ms)
  | fuel + 1, ms =>
    if !inBlock indent ms then ([], [], breaks, ms)
    else
      let (line, atEnd) := run (!isBreak ·) ms
      let (last, after) := lineBreak atEnd
      let (more, rest) := blockBreaks indent (after.length + 1) after
      if inBlock indent rest then
        let joint :=
          if fold && last == ['\n'] && startsDark ms && startsDark rest then
            if more.isEmpty then [' '] else []
          else last
        let (t, l, b, final) := blockLines fold indent more fuel rest
        (breaks ++ line ++ joint ++ t, l, b, final)
      else (breaks ++ line, last, more, rest)

/-- A block scalar from after its sign, inside a block of the given indentation. -/
def block (fold : Bool) (outer : Int) (ms : List Mark) : Except ReadError (Text × List Mark) := do
  let (header, rest) ← blockHeader ms
  let least := if outer ≤ 0 then 1 else outer.toNat + 1
  let (breaks, indent, start) :=
    match header.increment with
    | none =>
      let (t, widest, after) := blockStart (rest.length + 1) 0 rest
      (t, if widest < least then least else widest, after)
    | some n =>
      let (t, after) := blockBreaks (least + n - 1) (rest.length + 1) rest
      (t, least + n - 1, after)
  let (t, last, more, final) := blockLines fold indent breaks (start.length + 1) start
  let ending :=
    match header.chomping with
    | .strip => []
    | .clip => last
    | .keep => last ++ more
  return (t ++ ending, final)

end ChatCommands.Yaml
