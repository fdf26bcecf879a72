import ChatCommands.Text.Blank

/-!
The words of a command line. A word in quotation marks may hold blanks; a backslash puts a mark into
a word.
-/

namespace ChatCommands

/-- Why no word can be read. -/
inductive WordError where
  /-- A quotation is not closed. -/
  | unclosed
  /-- A quotation mark stands inside a word. -/
  | strayMark
  /-- A quotation is not followed by a blank. -/
  | noBlankAfter
deriving DecidableEq

namespace Word

/-- The marks that open a quotation, each with the mark that closes it. -/
def marks : List (Char × Char) := [
  ('\x22', '\x22'), ('‘', '’'), ('‚', '‛'), ('“', '”'), ('„', '‟'), ('⹂', '⹂'), ('「', '」'),
  ('『', '』'), ('〝', '〞'), ('﹁', '﹂'), ('﹃', '﹄'), ('＂', '＂'), ('｢', '｣'), ('«', '»'),
  ('‹', '›'), ('《', '》'), ('〈', '〉')]

def isMark (c : Char) : Bool :=
  marks.any fun (opening, closing) => c == opening || c == closing

def cons (c : Char) (r : Except WordError (Text × Text)) : Except WordError (Text × Text) :=
  r.map fun (word, rest) => (c :: word, rest)

/-- The rest of a quotation, and what follows it. -/
def quoted (opening closing : Char) : Text → Except WordError (Text × Text)
  | [] => .error .unclosed
  | ['\\'] => .error .unclosed
  | '\\' :: c :: rest =>
    if c = opening ∨ c = closing then cons c (quoted opening closing rest)
    else cons '\\' (quoted opening closing (c :: rest))
  | c :: rest =>
    if c ≠ closing then cons c (quoted opening closing rest)
    else
      match rest with
      | [] => .ok ([], [])
      | d :: _ => if Text.isBlank d then .ok ([], rest) else .error .noBlankAfter

/-- The rest of a word without quotation marks around it, and what follows it. A backslash at the
very end is dropped. -/
def plain : Text → Except WordError (Text × Text)
  | [] => .ok ([], [])
  | ['\\'] => .ok ([], [])
  | '\\' :: c :: rest =>
    if isMark c then cons c (plain rest) else cons '\\' (plain (c :: rest))
  | c :: rest =>
    if isMark c then .error .strayMark
    else if Text.isBlank c then .ok ([], c :: rest)
    else cons c (plain rest)

/-- The word at the start of a text after blanks, and what follows it, unless there is no word. -/
def first? (t : Text) : Except WordError (Option (Text × Text)) :=
  match Text.stripStart t with
  | [] => .ok none
  | c :: rest =>
    match marks.lookup c with
    | some closing => (quoted c closing rest).map some
    | none => (cons c (plain rest)).map some

/-- The first word of a text, empty where there is none. -/
def first (t : Text) : Except WordError (Text × Text) :=
  (first? t).map fun r => r.getD ([], [])

end Word

end ChatCommands
