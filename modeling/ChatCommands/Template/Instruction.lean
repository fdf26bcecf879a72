import ChatCommands.Text.Blank

/-!
Instructions: the text of a span cut at the semicolons that are neither nested nor escaped.

The first part names the instruction; the others are its arguments, raw and possibly holding
instructions of their own.
-/

namespace ChatCommands

/-- The first part of a text cut at its semicolons of depth zero, and the other parts. The text
stands at brace depth `depth`. -/
def cutParts (depth : Int) : Text → Text × List Text
  | [] => ([], [])
  | [c] => if c = ';' ∧ depth = 0 then ([], [[]]) else ([c], [])
  | c :: d :: rest =>
    if c = '\\' then
      let (first, others) := cutParts depth rest
      (c :: d :: first, others)
    else if c = ';' ∧ depth = 0 then
      let (first, others) := cutParts depth (d :: rest)
      ([], first :: others)
    else
      let inner := if c = '{' then depth + 1 else if c = '}' then depth - 1 else depth
      let (first, others) := cutParts inner (d :: rest)
      (c :: first, others)

/-- The parts of a text between the semicolons that are neither nested nor escaped. -/
def splitArguments (t : Text) : List Text :=
  let (first, others) := cutParts 0 t
  first :: others

/-- One instruction, with the text of its span. -/
structure Instruction where
  keyword : Text
  args : List Text
  text : Text
deriving DecidableEq

namespace Instruction

def inner (t : Text) : Text :=
  (t.drop 1).dropLast

def decode (t : Text) : Instruction :=
  let (first, others) := cutParts 0 (inner t)
  ⟨Text.strip first, others, t⟩

def body (i : Instruction) : Text :=
  inner i.text

/-- The arguments from number `index` on, joined as they were cut. -/
def rest (i : Instruction) (index : Nat) : Text :=
  Text.join [';'] (i.args.drop index)

theorem splitArguments_ne_nil (t : Text) : splitArguments t ≠ [] := by
  simp [splitArguments]

end Instruction

end ChatCommands
