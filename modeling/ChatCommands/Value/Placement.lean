import ChatCommands.Value.Scalar

/-!
The order in which the members of a set are listed.

Members stand in a table by their codes: the place of a member is its code modulo the size of the
table, or the next free place on a fixed route from there. A table that is three fifths full grows.
Members are listed by place. Only numbers have codes; a set with any other member is listed in the
order in which its members came.
-/

namespace ChatCommands.Placement

def codePrime : Nat := 2305843009213693951

def codePeriod : Int := 61

def wordCount : Nat := 18446744073709551616

/-- A signed remainder as a machine word. Minus one is taken for minus two. -/
def word (negative : Bool) (rest : Nat) : Nat :=
  if negative && rest != 0 then wordCount - (if rest = 1 then 2 else rest) else rest

/-- The code of a scalar, if it has one. Equal numbers have one code, whatever their kind. -/
def code? : Scalar → Option Nat
  | .int n => some (word (n < 0) (n.natAbs % codePrime))
  | .bool b => some (if b then 1 else 0)
  | .float (.finite negative mantissa exponent) =>
    some (word negative
      (mantissa * Binary64.twoTo (exponent.emod codePeriod).toNat % codePrime))
  | .float (.infinite negative) => some (word negative 314159)
  | _ => none

/-- The places of a table, each free or with a member and its code. -/
abbrev Table := List (Option (Nat × Scalar))

def Table.empty (size : Nat) : Table :=
  List.replicate size none

/-- How many neighbours of a place are tried before the route goes on. -/
def neighbours : Nat := 9

/-- The first free place among a place and its neighbours. -/
def freeNear (t : Table) (place : Nat) : Option Nat :=
  let count := if place + neighbours < t.length then neighbours + 1 else 1
  ((List.range count).map (place + ·)).find? fun k => t[k]?.any Option.isNone

/-- The first free place on the route of a code. The rest of the code bends the route. -/
def freePlace (t : Table) : Nat → Nat → Nat → Nat
  | 0, place, _ => place
  | fuel + 1, place, rest =>
    match freeNear t place with
    | some k => k
    | none => freePlace t fuel ((place * 5 + 1 + rest / 32) % t.length) (rest / 32)

/-- Puts a member into a table. A code is bent at most thirteen times, and then the route passes
every place. -/
def Table.put (t : Table) (m : Nat × Scalar) : Table :=
  t.set (freePlace t (t.length + 14) (m.1 % t.length) m.1) (some m)

@[simp] theorem Table.length_put (t : Table) (m : Nat × Scalar) : (t.put m).length = t.length := by
  simp [Table.put]

/-- The members of a table by their places, each with its code. -/
def Table.members (t : Table) : List (Nat × Scalar) :=
  t.filterMap id

/-- The least size above a number: eight, doubled as often as needed. -/
def sizeAbove (n : Nat) : Nat → Nat → Nat
  | 0, size => size
  | fuel + 1, size => if size ≤ n then sizeAbove n fuel (size * 2) else size

/-- A table with the members of another one, and more room. -/
def Table.grown (t : Table) : Table :=
  let members := t.members
  members.foldl Table.put (.empty (sizeAbove (members.length * 4) members.length 8))

/-- Puts a member into a table, which grows if it is then three fifths full. -/
def Table.insert (t : Table) (m : Nat × Scalar) : Table :=
  let next := t.put m
  if next.members.length * 5 < (t.length - 1) * 3 then next else next.grown

/-- The size of the table that a set of known size begins with. -/
def startSize (count : Nat) : Nat :=
  if count * 5 < 21 then 8 else sizeAbove (count * 2) count 8

/-- Distinct members in the order of their places, in a table that has the given size at first. -/
def listed (size : Nat) (members : List Scalar) : List Scalar :=
  match members.mapM fun s => (code? s).map fun c => (c, s) with
  | none => members
  | some coded => ((coded.foldl Table.insert (.empty size)).members).map Prod.snd

def ofList (members : List Scalar) : List Scalar :=
  listed 8 members

/-- The members of a set that was filled at once from the keys of a map. -/
def ofKeys (members : List Scalar) : List Scalar :=
  listed (startSize members.length) members

end ChatCommands.Placement
