import ChatCommands.Value.Basic

/-!
The comparisons of the condition language.

Loose equality takes a text for a number where the other side is one, and for a boolean where the
other side is one. Strict equality wants both sides to be of one kind, integers and floats
counting as one. The order relations compare numerals as numbers and other texts by code point.
-/

namespace ChatCommands

inductive Relation where
  | eq
  | ne
  | strictEq
  | strictNe
  | lt
  | le
  | gt
  | ge
deriving DecidableEq

namespace Relation

def all : List Relation := [.eq, .ne, .strictEq, .strictNe, .lt, .le, .gt, .ge]

def symbol : Relation → String
  | .eq => "=="
  | .ne => "!="
  | .strictEq => "==="
  | .strictNe => "!=="
  | .lt => "<"
  | .le => "<="
  | .gt => ">"
  | .ge => ">="

def ofSymbol? (t : Text) : Option Relation :=
  all.find? fun r => r.symbol.toList == t

/-- Whether an order relation holds between things that compare as `o`. -/
def admits : Relation → Ordering → Bool
  | .lt, o => o == .lt
  | .le, o => o != .gt
  | .gt, o => o == .gt
  | .ge, o => o != .lt
  | .eq, o | .strictEq, o => o == .eq
  | .ne, o | .strictNe, o => o != .eq

end Relation

namespace Value

def isBool (v : Value) : Bool := v.kind == .bool

/-- Whether a value is an integer or a float. -/
def isNumber (v : Value) : Bool := v.kind == .int || v.kind == .float

/-- A value with a truth word replaced by the boolean it stands for. -/
def asTruth : Value → Value
  | .json (.scalar s) => .scalar s.asTruth
  | v => v

def looseEq (a b : Value) : Bool :=
  if a.isBool || b.isBool then a.asTruth.same b.asTruth
  else if a.isNumber || b.isNumber then
    match a.number?, b.number? with
    | some m, some n => m.same n
    | _, _ => a.same b
  else a.same b

def strictEq (a b : Value) : Bool :=
  if a.isBool != b.isBool then false
  else if (a.isBool || a.isNumber) && (b.isBool || b.isNumber) then a.same b
  else a.kind == b.kind && a.same b

def textOrder (s t : Text) : Ordering :=
  if s = t then .eq else if Text.before s t then .lt else .gt

/-- The order of two values for a relation: none for a NaN, an error where there is no order. -/
def order (a b : Value) : Except (Kind × Kind) (Option Ordering) :=
  match a.number?, b.number? with
  | some m, some n => .ok (m.compare? n)
  | _, _ =>
    match a, b with
    | .json (.scalar (.text s)), .json (.scalar (.text t)) => .ok (some (textOrder s t))
    | _, _ => .error (a.kind, b.kind)

/-- Whether a relation holds. An order relation between kinds without an order is an error. -/
def relate (r : Relation) (a b : Value) : Except (Kind × Kind) Bool :=
  match r with
  | .eq => .ok (a.looseEq b)
  | .ne => .ok (!a.looseEq b)
  | .strictEq => .ok (a.strictEq b)
  | .strictNe => .ok (!a.strictEq b)
  | r => (a.order b).map fun o => (o.map r.admits).getD false

end Value

end ChatCommands
