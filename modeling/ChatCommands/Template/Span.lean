import ChatCommands.Text.Basic

/-!
The spans of a template: its balanced pairs of braces.

A backslash escapes the character after it, so an escaped brace bounds nothing. What remains are
the braces of the text, and the spans are read off their sequence alone. A span knows its place
in the text, the span around it and the number of spans around it.
-/

namespace ChatCommands

/-- A brace that is not escaped. -/
structure Brace where
  position : Nat
  opens : Bool
deriving DecidableEq

namespace Brace

/-- The braces of a text whose first character stands at position `start`. -/
def ofTextAt (start : Nat) : Text → List Brace
  | [] => []
  | [c] =>
    if c = '{' then [⟨start, true⟩] else if c = '}' then [⟨start, false⟩] else []
  | c :: d :: rest =>
    if c = '\\' then ofTextAt (start + 2) rest
    else if c = '{' then ⟨start, true⟩ :: ofTextAt (start + 1) (d :: rest)
    else if c = '}' then ⟨start, false⟩ :: ofTextAt (start + 1) (d :: rest)
    else ofTextAt (start + 1) (d :: rest)

def ofText (t : Text) : List Brace :=
  ofTextAt 0 t

/-- The position after the brace that closes the innermost of `inner + 1` open pairs. -/
def closing (inner : Nat) : List Brace → Option Nat
  | [] => none
  | ⟨_, true⟩ :: rest => closing (inner + 1) rest
  | ⟨position, false⟩ :: rest =>
    match inner with
    | 0 => some (position + 1)
    | outer + 1 => closing outer rest

end Brace

/-- Why the braces of a text are not balanced. -/
inductive Imbalance where
  | unexpectedClose (position : Nat)
  | unclosedOpen (position : Nat)
deriving DecidableEq

/-- The first fault of a sequence of braces, `opened` being the positions still open, innermost
first: a closing brace that closes nothing, else the innermost brace left open. -/
def imbalance (opened : List Nat) : List Brace → Option Imbalance
  | [] => opened.head?.map .unclosedOpen
  | ⟨position, true⟩ :: rest => imbalance (position :: opened) rest
  | ⟨position, false⟩ :: rest =>
    match opened with
    | [] => some (.unexpectedClose position)
    | _ :: outer => imbalance outer rest

/-- A balanced pair of braces: the text from `start` up to `stop`. -/
structure Span where
  start : Nat
  stop : Nat
  parent : Option Nat
  depth : Nat
deriving DecidableEq

namespace Span

/-- The spans that open in a sequence of braces. `around` are the indices of the open spans,
innermost first, and `index` is that of the next span. -/
def ofBraces (around : List Nat) (index : Nat) : List Brace → List Span
  | [] => []
  | ⟨start, true⟩ :: rest =>
    ⟨start, (Brace.closing 0 rest).getD start, around.head?, around.length⟩ ::
      ofBraces (index :: around) (index + 1) rest
  | ⟨_, false⟩ :: rest => ofBraces around.tail index rest

def scan (t : Text) : Except Imbalance (List Span) :=
  match imbalance [] (Brace.ofText t) with
  | some fault => .error fault
  | none => .ok (ofBraces [] 0 (Brace.ofText t))

def text (s : Span) (t : Text) : Text :=
  t.slice s.start s.stop

end Span

end ChatCommands
