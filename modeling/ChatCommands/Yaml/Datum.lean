import ChatCommands.Value.Placement
import ChatCommands.Yaml.Held

/-!
The data that a YAML document holds.

The pairs of a map stand in the order in which their keys first occurred, with the last value for
each key. Where a list or a map lies inside itself, a sign stands in place of its repetition.
-/

namespace ChatCommands.Yaml

inductive Datum where
  | atom (a : Atom)
  | list (items : List Datum)
  | map (pairs : List (Atom × Datum))
  | set (members : List Atom)
  | pair (first second : Datum)
  /-- A list inside itself. -/
  | listAgain
  /-- A map inside itself. -/
  | mapAgain

namespace Datum

abbrev null : Datum := .atom (.scalar .null)

def truth : Datum → Bool
  | .atom a => a.truth
  | .list items => !items.isEmpty
  | .map pairs => !pairs.isEmpty
  | .set members => !members.isEmpty
  | _ => true

/-- The members of a set in the order in which they are shown. -/
def shownMembers (members : List Atom) : List Atom :=
  let scalar? : Atom → Option Scalar
    | .scalar s => some s
    | _ => none
  match members.mapM scalar? with
  | some scalars => (Placement.ofKeys scalars).map .scalar
  | none => members

/-- A set in braces, unless it is empty. -/
def setLiteral (members : List Atom) : Text :=
  if members.isEmpty then "set()".toList
  else
    '\x7b' :: Text.join ", ".toList ((shownMembers members).map Atom.literal) ++ ['\x7d']

mutual
def literal : Datum → Text
  | .atom a => a.literal
  | .list items => '[' :: Text.join ", ".toList (literalItems items) ++ [']']
  | .map pairs => '\x7b' :: Text.join ", ".toList (literalPairs pairs) ++ ['\x7d']
  | .set members => setLiteral members
  | .pair a b => '(' :: literal a ++ ", ".toList ++ literal b ++ [')']
  | .listAgain => "[...]".toList
  | .mapAgain => "\x7b...\x7d".toList
def literalItems : List Datum → List Text
  | [] => []
  | x :: rest => literal x :: literalItems rest
def literalPairs : List (Atom × Datum) → List Text
  | [] => []
  | (k, v) :: rest => (k.literal ++ ": ".toList ++ literal v) :: literalPairs rest
end

mutual
/-- Whether an integer in a datum has too many digits to be shown. -/
def tooLong : Datum → Bool
  | .atom a => a.tooLong
  | .list items => tooLongItems items
  | .map pairs => tooLongPairs pairs
  | .set members => members.any Atom.tooLong
  | .pair a b => tooLong a || tooLong b
  | .listAgain | .mapAgain => false
def tooLongItems : List Datum → Bool
  | [] => false
  | x :: rest => tooLong x || tooLongItems rest
def tooLongPairs : List (Atom × Datum) → Bool
  | [] => false
  | (k, v) :: rest => k.tooLong || tooLong v || tooLongPairs rest
end

/-- The text of a datum: a text is itself, anything else its literal. -/
def display (d : Datum) : Except Crash Text :=
  if d.tooLong then .error .tooManyDigits
  else
    match d with
    | .atom a => .ok a.display
    | d => .ok d.literal

def toInteger : Datum → Except Crash Int
  | .atom a => a.toScalar.bind Scalar.toInteger
  | _ => .error .wrongKind

def toFloat : Datum → Except Crash Binary64
  | .atom a => a.toScalar.bind Scalar.toFloat
  | _ => .error .wrongKind

def valueAt (name : Text) (pairs : List (Atom × Datum)) : Option Datum :=
  (pairs.find? fun p => p.1.same (.scalar (.text name))).map Prod.snd

/-- The datum of a node, given the collections around it. -/
def ofHeld (held : List (Nat × Held)) : Nat → List Nat → Nat → Datum
  | 0, _, _ => null
  | fuel + 1, around, n =>
    let inside := ofHeld held fuel (n :: around)
    match held.lookup n, around.contains n with
    | none, _ => null
    | some (.atom a), _ => .atom a
    | some (.set members), _ => .set members
    | some (.map _), true => .mapAgain
    | some _, true => .listAgain
    | some (.list items), false => .list (items.map inside)
    | some (.map pairs), false => .map (pairs.map fun (k, v) => (k, inside v))
    | some (.pairs items), false => .list (items.map fun (a, b) => .pair (inside a) (inside b))

/-- The datum of the outermost node. The values of a map are seen each on its own. -/
def ofRoot (held : List (Nat × Held)) (root : Nat) : Datum :=
  match held.lookup root with
  | some (.map pairs) => .map (pairs.map fun (k, v) => (k, ofHeld held (held.length + 1) [] v))
  | _ => ofHeld held (held.length + 1) [] root

/-- The datum of a document, null where there is none. -/
def read (t : Text) : Except ReadError Datum := do
  match ← Graph.ofText? t with
  | none => return null
  | some (root, g) => return ofRoot (← g.held root) root

end Datum

end ChatCommands.Yaml
