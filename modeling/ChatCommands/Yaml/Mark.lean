import ChatCommands.Crash
import ChatCommands.Text.Range

/-!
The characters of a YAML document with their positions, and the classes of characters that the
scanner tells apart.
-/

namespace ChatCommands.Yaml

/-- Why a document cannot be read. -/
inductive ReadError where
  | malformed
  /-- The document is well formed, but a scalar of it has no value. -/
  | crash (c : Crash)
deriving DecidableEq

/-- A character and where it stands. -/
structure Mark where
  char : Char
  index : Nat
  line : Nat
  column : Nat
deriving DecidableEq

def isBreak (c : Char) : Bool :=
  c == '\n' || c == '\r' || c == '\x85' || c == '\u2028' || c == '\u2029'

/-- The byte order mark, which takes no column. -/
def isOrderMark (c : Char) : Bool :=
  c == '\ufeff'

def isAllowed (c : Char) : Bool :=
  Text.inRanges [(0x9, 0xa), (0xd, 0xd), (0x20, 0x7e), (0x85, 0x85), (0xa0, 0xd7ff),
    (0xe000, 0xfffd), (0x10000, 0x10ffff)] c

def hexDigit? (c : Char) : Option Nat :=
  if c.isDigit then some (c.toNat - 48)
  else if 'a' ≤ c ∧ c ≤ 'f' then some (c.toNat - 87)
  else if 'A' ≤ c ∧ c ≤ 'F' then some (c.toNat - 55)
  else none

def marksFrom (index line column : Nat) : Text → List Mark
  | [] => []
  | c :: rest =>
    let here : Mark := ⟨c, index, line, column⟩
    if isBreak c && !(c == '\r' && rest.head? == some '\n') then
      here :: marksFrom (index + 1) (line + 1) 0 rest
    else here :: marksFrom (index + 1) line (if isOrderMark c then column else column + 1) rest

def marks (t : Text) : List Mark :=
  marksFrom 0 0 0 t

def peek (ms : List Mark) : Option Char :=
  ms.head?.map Mark.char

/-- Whether the next character is of a class. -/
def next (p : Char → Bool) (ms : List Mark) : Bool :=
  ms.head?.any fun m => p m.char

/-- Whether the document or the line ends here. -/
def atLineEnd (ms : List Mark) : Bool :=
  ms.isEmpty || next isBreak ms

/-- Whether a blank follows, or the end of the line or document. -/
def atBlank (ms : List Mark) : Bool :=
  atLineEnd ms || next (fun c => c == ' ' || c == '\t') ms

def textOf (ms : List Mark) : Text :=
  ms.map Mark.char

/-- The characters up to the first that is not of a class, and what follows them. -/
def run (p : Char → Bool) (ms : List Mark) : Text × List Mark :=
  let (taken, rest) := ms.span fun m => p m.char
  (textOf taken, rest)

def skip (p : Char → Bool) (ms : List Mark) : List Mark :=
  ms.dropWhile fun m => p m.char

/-- The end of a line as it counts in a scalar, and what follows it. -/
def lineBreak : List Mark → Text × List Mark
  | [] => ([], [])
  | m :: rest =>
    if m.char = '\r' ∧ peek rest = some '\n' then (['\n'], rest.drop 1)
    else if m.char = '\u2028' ∨ m.char = '\u2029' then ([m.char], rest)
    else if isBreak m.char then (['\n'], rest)
    else ([], m :: rest)

/-- Whether three of the given characters stand alone here, as between documents. -/
def isMarker (c : Char) (ms : List Mark) : Bool :=
  textOf (ms.take 3) == [c, c, c] && atBlank (ms.drop 3)

/-- Whether a document begins or ends here. -/
def atMarker (ms : List Mark) : Bool :=
  isMarker '-' ms || isMarker '.' ms

/-- What a break and further breaks after it become: one break counts as a blank. -/
def folded (first breaks : Text) : Text :=
  if first ≠ ['\n'] then first ++ breaks else if breaks.isEmpty then [' '] else breaks

end ChatCommands.Yaml
