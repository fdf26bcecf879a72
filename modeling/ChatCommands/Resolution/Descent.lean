import ChatCommands.Resolution.Basic

/-!
Resolution with a counter for the nesting depth.

All levels of a resolution share the counter. It goes up where an argument with instructions of its
own is entered, and down where it is left, with a text or with an error. Each instruction is counted
with the depth that the counter shows at that moment.
-/

namespace ChatCommands

/-- How deep a resolution stands, and how deep it has been. -/
structure Depth where
  now : Nat
  deepest : Nat
deriving DecidableEq

abbrev Descent := ExceptT Fault (StateT Depth (StateM Run))

namespace Depth

def top : Depth := ⟨0, 0⟩

def descend (d : Depth) : Depth :=
  ⟨d.now + 1, max d.deepest (d.now + 1)⟩

def ascend (d : Depth) : Depth :=
  { d with now := d.now - 1 }

end Depth

namespace Descent

def depth : Descent Nat := do
  return (← getThe Depth).now

/-- The resolution of an argument with instructions, unless it is nested too deep. -/
def deeper (inner : Text → Descent Text) (raw : Text) : Descent Text := do
  if maxNestedInstructions ≤ (← depth) then
    Resolve.refuse (.tooDeep maxNestedInstructions)
  modifyThe Depth Depth.descend
  try inner raw
  finally modifyThe Depth Depth.ascend

def walk (c : Context) (inner : Text → Descent Text) (blocks : List Block) :
    List Region → Arena → Descent Arena
  | [], a => return a
  | r :: rest, a =>
    if a.isVoid r.index then walk c inner blocks rest a
    else do
      let i := Instruction.decode (a.regionText r)
      Resolve.count c (← depth) i a
      match Verb.ofKeyword i.keyword with
      | .condition =>
        let holds ← Resolve.condition c inner i
        match blocks.find? fun b => b.opener.index == r.index with
        | some b => walk c inner blocks rest (b.choose holds a)
        | none => throw (.crash .missingKey)
      | verb =>
        let new ← Resolve.perform c inner verb i
        walk c inner blocks rest (a.replace r new).2

/-- One level of resolution, where `inner` resolves what is nested in arguments. -/
def level (c : Context) (inner : Text → Descent Text) (t : Text) : Descent Text := do
  match Block.ofText t with
  | .error e => Resolve.stop (.parse e)
  | .ok (a, blocks) =>
    let final ← walk c inner blocks a.regions a
    return final.render

/-- The resolution of a text. The recursion is on the levels below it that can be entered before
the counter stops them. -/
def text (c : Context) : Nat → Text → Descent Text
  | 0 => level c (deeper fun _ => Resolve.refuse (.tooDeep maxNestedInstructions))
  | levels + 1 => level c (deeper (text c levels))

/-- An argument as an instruction uses it, wherever the resolution stands. -/
def argument (c : Context) (raw : Text) : Descent Text :=
  Resolve.argument (deeper (text c maxNestedInstructions)) raw

def resolve (c : Context) (t : Text) (d : Depth) (start : Run) :
    (Except Fault Message × Depth) × Run :=
  let ((result, d), final) := ((text c maxNestedInstructions t).run.run d).run start
  ((result.map fun body => ⟨body, final.effects.stickers, final.effects.followups⟩, d), final)

end Descent

end ChatCommands
