import ChatCommands.Number.Basic
import ChatCommands.Number.Shortest
import ChatCommands.Text.Case
import ChatCommands.Text.Quoted

/-!
Values without parts: null, booleans, numbers and texts.

A boolean counts as the number zero or one where two scalars are compared for equality, but is
never taken for a number otherwise.
-/

namespace ChatCommands

inductive Scalar where
  | null
  | bool (b : Bool)
  | int (n : Int)
  | float (x : Binary64)
  | text (t : Text)
deriving DecidableEq

namespace Scalar

/-- The number that a scalar stands for in an equality, a boolean included. -/
def numeric? : Scalar → Option Number
  | .bool b => some (.int (if b then 1 else 0))
  | .int n => some (.int n)
  | .float x => some (.float x)
  | _ => none

/-- Equality of two scalars: numbers by value, whatever their kind. A NaN equals nothing. -/
def same : Scalar → Scalar → Bool
  | .null, .null => true
  | .text s, .text t => s == t
  | a, b =>
    match a.numeric?, b.numeric? with
    | some m, some n => m.same n
    | _, _ => false

/-- Equality inside a container, where a NaN equals itself. -/
def sameInside (a b : Scalar) : Bool :=
  a == b || a.same b

def distinct (items : List Scalar) : List Scalar :=
  items.foldl
    (fun known item => if known.any fun k => k.sameInside item then known else known ++ [item]) []

/-- The number that a scalar is taken for where one is wanted: a text counts if it is a numeral. -/
def number? : Scalar → Option Number
  | .null | .bool _ => none
  | .int n => some (.int n)
  | .float x => some (.float x)
  | .text t =>
    let numeral := Text.strip t
    match Numeral.readInt numeral with
    | some n => some (.int n)
    | none => (Numeral.readFloat numeral).map .float

def truth : Scalar → Bool
  | .null => false
  | .bool b => b
  | .int n => n != 0
  | .float x => !x.isZero
  | .text t => !t.isEmpty

/-- The text of a scalar in an output: null is empty, and a float without a fraction has none. -/
def rendered : Scalar → Text
  | .null => []
  | .bool b => if b then "true".toList else "false".toList
  | .int n => Text.ofInt n
  | .float x => if x.isInteger then ((x.truncate?.map Text.ofInt).getD []) else x.text
  | .text t => t

/-- The text that a scalar has as an operand: a text is itself. -/
def display : Scalar → Text
  | .null => "None".toList
  | .bool b => if b then "True".toList else "False".toList
  | .int n => Text.ofInt n
  | .float x => x.text
  | .text t => t

/-- The text of a scalar inside a shown container: texts are quoted. -/
def literal : Scalar → Text
  | .text t => Text.quoted t
  | s => s.display

/-- The words that stand for truth values where one side of an equality is a boolean. -/
def truthWord? (t : Text) : Option Bool :=
  let word := Text.lower (Text.strip t)
  if word = "true".toList then some true
  else if word = "false".toList then some false
  else none

/-- A scalar with a truth word replaced by the boolean it stands for. -/
def asTruth : Scalar → Scalar
  | .text t => ((truthWord? t).map .bool).getD (.text t)
  | s => s

end Scalar

end ChatCommands
