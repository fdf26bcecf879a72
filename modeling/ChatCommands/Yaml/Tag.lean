import ChatCommands.Number.Numeral
import ChatCommands.Yaml.Mark

/-!
Tags: the names of the kinds of nodes.

A tag is written in full between angle brackets, or as a handle, which stands for the start of the
name, and a suffix. Percent signs write the bytes of characters that a tag may not hold.
-/

namespace ChatCommands.Yaml

/-- The kinds of nodes that have a name of their own. -/
inductive Tag where
  | null
  | bool
  | integer
  | float
  | binary
  | timestamp
  | text
  | list
  | map
  | set
  /-- A list of maps of one pair each, in which the order counts. -/
  | ordered
  | pairs
  /-- The key whose value is the pairs of other maps. -/
  | merge
  /-- The key whose value stands for the whole map where a scalar is needed. -/
  | default
  | other
deriving DecidableEq

namespace Tag

def core : Text := "tag:yaml.org,2002:".toList

def names : List (String × Tag) := [
  ("null", .null), ("bool", .bool), ("int", .integer), ("float", .float), ("binary", .binary),
  ("timestamp", .timestamp), ("str", .text), ("seq", .list), ("map", .map), ("set", .set),
  ("omap", .ordered), ("pairs", .pairs), ("merge", .merge), ("value", .default)]

def ofName (name : Text) : Tag :=
  ((names.find? fun (n, _) => core ++ n.toList == name).map Prod.snd).getD .other

end Tag

/-- A tag as it is written. Without a handle the suffix is the whole name. -/
structure TagName where
  handle : Option Text
  suffix : Text
deriving DecidableEq

namespace TagName

def untold : Text := ['!']

def isHandleChar (c : Char) : Bool :=
  c.isAlphanum || c == '-' || c == '_'

def isUriChar (c : Char) : Bool :=
  c.isAlphanum || "-;/?:@&=+$,_.!~*\x27()[]".toList.contains c

/-- The bytes that percent signs write, and what follows them. -/
def escapedBytes : List Mark → Except ReadError (List UInt8 × List Mark)
  | p :: a :: b :: rest =>
    if p.char ≠ '%' then .ok ([], p :: a :: b :: rest)
    else
      match hexDigit? a.char, hexDigit? b.char with
      | some high, some low =>
        (escapedBytes rest).map fun (bytes, after) =>
          (UInt8.ofNat (16 * high + low) :: bytes, after)
      | _, _ => .error .malformed
  | ms => if next (· == '%') ms then .error .malformed else .ok ([], ms)

def decoded (bytes : List UInt8) : Except ReadError Text :=
  match String.fromUTF8? (ByteArray.mk bytes.toArray) with
  | some s => .ok s.toList
  | none => .error .malformed

/-- The characters of a suffix, and what follows them. The fuel is the number of characters. -/
def uriFrom : Nat → List Mark → Except ReadError (Text × List Mark)
  | 0, ms => .ok ([], ms)
  | fuel + 1, ms =>
    if next (· == '%') ms then do
      let (bytes, rest) ← escapedBytes ms
      let t ← decoded bytes
      let (u, after) ← uriFrom fuel rest
      return (t ++ u, after)
    else if next isUriChar ms then do
      let (part, rest) := run isUriChar ms
      let (u, after) ← uriFrom fuel rest
      return (part ++ u, after)
    else .ok ([], ms)

/-- A suffix, which is not empty, and what follows it. -/
def uri (ms : List Mark) : Except ReadError (Text × List Mark) := do
  let (t, rest) ← uriFrom (ms.length + 1) ms
  if t.isEmpty then .error .malformed else .ok (t, rest)

/-- A handle from after its first mark: a mark alone before a blank, or a name and a second mark. -/
def scanHandle (ms : List Mark) : Except ReadError (Text × List Mark) :=
  if next (· == ' ') ms then .ok (['!'], ms)
  else
    let (name, rest) := run isHandleChar ms
    if next (· == '!') rest then .ok ('!' :: name ++ ['!'], rest.drop 1) else .error .malformed

/-- Whether the line or the word ends here. -/
def atEnd (ms : List Mark) : Bool :=
  atLineEnd ms || next (· == ' ') ms

/-- The name of a tag from after its first mark, and what follows it. -/
def unended (ms : List Mark) : Except ReadError (TagName × List Mark) := do
  if next (· == '<') ms then
    let (name, rest) ← uri (ms.drop 1)
    if next (· == '>') rest then .ok (⟨none, name⟩, rest.drop 1) else .error .malformed
  else if atBlank ms then .ok (⟨none, untold⟩, ms)
  else
    let word := (run (fun c => c != ' ' && !isBreak c) ms).1
    let (h, rest) ← if '!' ∈ word then scanHandle ms else .ok (['!'], ms)
    let (suffix, after) ← uri rest
    return (⟨some h, suffix⟩, after)

/-- The name of a tag from after its first mark, and the blank or the end that must follow it. -/
def scan (ms : List Mark) : Except ReadError (TagName × List Mark) := do
  let (name, rest) ← unended ms
  if atEnd rest then return (name, rest) else .error .malformed

end TagName

/-- A line that says something about the document after it. -/
inductive Directive where
  | version (major : Nat)
  | handle (handle start : Text)
  | unknown
deriving DecidableEq

namespace Directive

/-- A number of a version, and what follows it. -/
def number (ms : List Mark) : Except ReadError (Nat × List Mark) :=
  let (digits, rest) := run Char.isDigit ms
  if digits.isEmpty then .error .malformed
  else
    match Numeral.readInt digits with
    | some n => .ok (n.toNat, rest)
    | none => .error (.crash .tooManyDigits)

def scanVersion (ms : List Mark) : Except ReadError (Directive × List Mark) := do
  let (major, rest) ← number (skip (· == ' ') ms)
  if !next (· == '.') rest then .error .malformed
  else
    let (_, after) ← number (rest.drop 1)
    if TagName.atEnd after then return (.version major, after) else .error .malformed

def scanHandle (ms : List Mark) : Except ReadError (Directive × List Mark) := do
  let start := skip (· == ' ') ms
  if !next (· == '!') start then .error .malformed
  else
    let (h, rest) ← TagName.scanHandle (start.drop 1)
    if !next (· == ' ') rest then .error .malformed
    else
      let (t, after) ← TagName.uri (skip (· == ' ') rest)
      if TagName.atEnd after then return (.handle h t, after) else .error .malformed

/-- What a directive says, from after its first sign, and the rest of its line. -/
def content (ms : List Mark) : Except ReadError (Directive × List Mark) :=
  let (name, rest) := run TagName.isHandleChar ms
  if name.isEmpty || !TagName.atEnd rest then .error .malformed
  else if name = "YAML".toList then scanVersion rest
  else if name = "TAG".toList then scanHandle rest
  else .ok (.unknown, skip (!isBreak ·) rest)

/-- A directive from after its first sign, and what follows its line, which may end in a comment. -/
def scan (ms : List Mark) : Except ReadError (Directive × List Mark) := do
  let (d, rest) ← content ms
  let comment := skip (· == ' ') rest
  let line := if next (· == '#') comment then skip (!isBreak ·) comment else comment
  if atLineEnd line then return (d, (lineBreak line).2) else .error .malformed

end Directive

end ChatCommands.Yaml
