import ChatCommands.Value.Compare

/-!
The syntax of conditions and paths.

A path starts at a root name and takes steps from there; it keeps the text it was written as.
-/

namespace ChatCommands

mutual
inductive Expr where
  | literal (v : Value)
  | path (root : Text) (steps : List Step) (source : Text)
  | not (operand : Expr)
  | all (operands : List Expr)
  | any (operands : List Expr)
  | compare (relation : Relation) (left right : Expr)
inductive Step where
  | field (name : Text)
  | index (key : Expr)
  | joinFrom (start : Nat)
  | call (name : Text) (args : List Expr)
end

instance : Inhabited Expr := ⟨.literal .null⟩

/-- A path by itself. -/
structure Path where
  root : Text
  steps : List Step
  source : Text

def Path.expr (p : Path) : Expr :=
  .path p.root p.steps p.source

end ChatCommands
