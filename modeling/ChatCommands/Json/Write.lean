import ChatCommands.Json.Basic

/-!
Writing JSON, on one line or indented.

Strings escape quotes, backslashes and control characters, and on request everything outside
ASCII. The numbers that JSON lacks are written `NaN`, `Infinity` and `-Infinity`.
-/

namespace ChatCommands.Json

/-- A code point as one escape, or as two where it is beyond the basic plane. -/
def escapeCode (n : Nat) : Text :=
  if n < 0x10000 then "\\u".toList ++ Text.hex 4 n
  else
    let rest := n - 0x10000
    "\\u".toList ++ Text.hex 4 (0xd800 + rest / 0x400) ++
      "\\u".toList ++ Text.hex 4 (0xdc00 + rest % 0x400)

def escapeChar (ascii : Bool) (c : Char) : Text :=
  if c = '\x22' ∨ c = '\\' then ['\\', c]
  else if c = '\n' then "\\n".toList
  else if c = '\r' then "\\r".toList
  else if c = '\t' then "\\t".toList
  else if c = '\x08' then "\\b".toList
  else if c = '\x0c' then "\\f".toList
  else if c.toNat < 0x20 ∨ (ascii ∧ 0x7e < c.toNat) then escapeCode c.toNat
  else [c]

def writeText (ascii : Bool) (t : Text) : Text :=
  '\x22' :: t.flatMap (escapeChar ascii) ++ ['\x22']

def writeScalar (ascii : Bool) : Scalar → Text
  | .null => "null".toList
  | .bool b => if b then "true".toList else "false".toList
  | .int n => Text.ofInt n
  | .float .nan => "NaN".toList
  | .float (.infinite negative) => if negative then "-Infinity".toList else "Infinity".toList
  | .float x => x.text
  | .text t => writeText ascii t

mutual
def write (ascii : Bool) : Json → Text
  | .scalar s => writeScalar ascii s
  | .array items => '[' :: Text.join ", ".toList (writeItems ascii items) ++ [']']
  | .object fields => '{' :: Text.join ", ".toList (writeFields ascii fields) ++ ['}']
def writeItems (ascii : Bool) : List Json → List Text
  | [] => []
  | x :: rest => write ascii x :: writeItems ascii rest
def writeFields (ascii : Bool) : List (Text × Json) → List Text
  | [] => []
  | (k, v) :: rest => (writeText ascii k ++ ": ".toList ++ write ascii v) :: writeFields ascii rest
end

/-- A line break with the indentation of a nesting depth, two blanks for each level. -/
def lineBreak (depth : Nat) : Text :=
  '\n' :: List.replicate (2 * depth) ' '

/-- The parts of a container on lines of their own, one level deeper than `depth`. -/
def spread (opening closing : Char) (depth : Nat) (parts : List Text) : Text :=
  if parts.isEmpty then [opening, closing]
  else
    opening :: lineBreak (depth + 1) ++ Text.join (',' :: lineBreak (depth + 1)) parts ++
      lineBreak depth ++ [closing]

mutual
/-- A value with each item and field on a line of its own. -/
def writeIndented (depth : Nat) : Json → Text
  | .scalar s => writeScalar true s
  | .array items => spread '[' ']' depth (indentedItems (depth + 1) items)
  | .object fields => spread '{' '}' depth (indentedFields (depth + 1) fields)
def indentedItems (depth : Nat) : List Json → List Text
  | [] => []
  | x :: rest => writeIndented depth x :: indentedItems depth rest
def indentedFields (depth : Nat) : List (Text × Json) → List Text
  | [] => []
  | (k, v) :: rest =>
    (writeText true k ++ ": ".toList ++ writeIndented depth v) :: indentedFields depth rest
end

end ChatCommands.Json
