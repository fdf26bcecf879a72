import ChatCommands.Resolution.Basic

/-!
Resolution with a record of what its loops come to.

Every level of a resolution runs a loop over the spans of its own text. The record has each span
that one of these loops executes, whatever its level, in the order in which they are executed, with
the arena as the loop finds it there.
-/

namespace ChatCommands

/-- A span that a loop comes to, in the text of its level. -/
structure Visit where
  template : Text
  blocks : List Block
  region : Region
  arena : Arena

abbrev Tour := ExceptT Fault (StateT (List Visit) (StateM Run))

namespace Tour

def record (v : Visit) : Tour PUnit :=
  modifyThe (List Visit) (· ++ [v])

def walk (c : Context) (inner : Text → Tour Text) (depth : Nat) (t : Text) (blocks : List Block) :
    List Region → Arena → Tour Arena
  | [], a => return a
  | r :: rest, a =>
    if a.isVoid r.index then walk c inner depth t blocks rest a
    else do
      record ⟨t, blocks, r, a⟩
      let i := Instruction.decode (a.regionText r)
      Resolve.count c depth i a
      match Verb.ofKeyword i.keyword with
      | .condition =>
        let holds ← Resolve.condition c inner i
        match blocks.find? fun b => b.opener.index == r.index with
        | some b => walk c inner depth t blocks rest (b.choose holds a)
        | none => throw (.crash .missingKey)
      | verb =>
        let new ← Resolve.perform c inner verb i
        walk c inner depth t blocks rest (a.replace r new).2

/-- One level of resolution, where `inner` resolves what is nested in arguments. -/
def level (c : Context) (inner : Text → Tour Text) (depth : Nat) (t : Text) : Tour Text := do
  match Block.ofText t with
  | .error e => Resolve.stop (.parse e)
  | .ok (a, blocks) =>
    let final ← walk c inner depth t blocks a.regions a
    return final.render

/-- The resolution of a text that is nested so deep that `levels` more are allowed. -/
def text (c : Context) : Nat → Text → Tour Text
  | 0 => level c (fun _ => Resolve.refuse (.tooDeep maxNestedInstructions)) maxNestedInstructions
  | levels + 1 => level c (text c levels) (maxNestedInstructions - (levels + 1))

def outcome (y : Tour α) (visits : List Visit) (start : Run) :
    (Except Fault α × List Visit) × Run :=
  (y.run.run visits).run start

end Tour

end ChatCommands
