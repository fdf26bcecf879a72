import ChatCommands.Value.Scalar

/-!
JSON values. The fields of an object stand in the order in which their names first occurred.
-/

namespace ChatCommands

inductive Json where
  | scalar (s : Scalar)
  | array (items : List Json)
  | object (fields : List (Text × Json))

namespace Json

abbrev null : Json := .scalar .null
abbrev text (t : Text) : Json := .scalar (.text t)
abbrev int (n : Int) : Json := .scalar (.int n)

instance : Inhabited Json := ⟨null⟩

def field? (name : Text) (fields : List (Text × Json)) : Option Json :=
  fields.lookup name

/-- Sets one field: a name that is there keeps its place. -/
def setField (name : Text) (value : α) : List (Text × α) → List (Text × α)
  | [] => [(name, value)]
  | (k, v) :: rest => if k = name then (k, value) :: rest else (k, v) :: setField name value rest

/-- The fields with only the last value for each name, in the place of its first. -/
def mergeFields (fields : List (Text × α)) : List (Text × α) :=
  fields.foldl (fun known (k, v) => setField k v known) []

mutual
/-- Equality inside a container: items one by one, fields by name in any order. -/
def sameInside : Json → Json → Bool
  | .scalar a, .scalar b => a.sameInside b
  | .array xs, .array ys => sameItems xs ys
  | .object xs, .object ys => xs.length == ys.length && sameFields xs ys
  | _, _ => false
def sameItems : List Json → List Json → Bool
  | [], [] => true
  | x :: xs, y :: ys => sameInside x y && sameItems xs ys
  | _, _ => false
def sameFields : List (Text × Json) → List (Text × Json) → Bool
  | [], _ => true
  | (k, x) :: xs, ys =>
    (match ys.lookup k with
      | some y => sameInside x y
      | none => false) && sameFields xs ys
end

def same : Json → Json → Bool
  | .scalar a, .scalar b => a.same b
  | x, y => sameInside x y

def truth : Json → Bool
  | .scalar s => s.truth
  | .array items => !items.isEmpty
  | .object fields => !fields.isEmpty

mutual
/-- The text of a value as an operand inside a container. -/
def literal : Json → Text
  | .scalar s => s.literal
  | .array items => '[' :: Text.join ", ".toList (literalItems items) ++ [']']
  | .object fields => '{' :: Text.join ", ".toList (literalFields fields) ++ ['}']
def literalItems : List Json → List Text
  | [] => []
  | x :: rest => literal x :: literalItems rest
def literalFields : List (Text × Json) → List Text
  | [] => []
  | (k, v) :: rest => (Text.quoted k ++ ": ".toList ++ literal v) :: literalFields rest
end

/-- The text of a value as an operand: a text is itself, anything else its literal. -/
def display : Json → Text
  | .scalar s => s.display
  | j => j.literal

end Json

end ChatCommands
