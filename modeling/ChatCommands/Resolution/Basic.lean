import ChatCommands.Resolution.Verb

/-!
Resolution of a template.

The live spans are executed from left to right, each replaced by what its instruction gives. The
text that is put in is never scanned. An `if` erases the branch that is not taken. Arguments with
instructions of their own are resolved one level deeper, and the recursion is on the levels that
are left.
-/

namespace ChatCommands

/-- The most levels that instructions may be nested in arguments. -/
def maxNestedInstructions : Nat := 50

namespace Resolve

def walk (c : Context) (inner : Text → Resolve Text) (depth : Nat) (blocks : List Block) :
    List Region → Arena → Resolve Arena
  | [], a => return a
  | r :: rest, a =>
    if a.isVoid r.index then walk c inner depth blocks rest a
    else do
      let i := Instruction.decode (a.regionText r)
      count c depth i a
      match Verb.ofKeyword i.keyword with
      | .condition =>
        let holds ← condition c inner i
        match blocks.find? fun b => b.opener.index == r.index with
        | some b => walk c inner depth blocks rest (b.choose holds a)
        | none => throw (.crash .missingKey)
      | verb =>
        let new ← perform c inner verb i
        walk c inner depth blocks rest (a.replace r new).2

/-- One level of resolution, where `inner` resolves what is nested in arguments. -/
def level (c : Context) (inner : Text → Resolve Text) (depth : Nat) (t : Text) : Resolve Text := do
  match Block.ofText t with
  | .error e => stop (.parse e)
  | .ok (a, blocks) =>
    let final ← walk c inner depth blocks a.regions a
    return final.render

/-- The resolution of a text that is nested so deep that `levels` more are allowed. -/
def text (c : Context) : Nat → Text → Resolve Text
  | 0 => level c (fun _ => refuse (.tooDeep maxNestedInstructions)) maxNestedInstructions
  | levels + 1 => level c (text c levels) (maxNestedInstructions - (levels + 1))

end Resolve

/-- A resolved template: the text, its stickers, and the messages that follow it. -/
structure Message where
  text : Text
  stickers : List Attachment
  followups : List Text

namespace Message

/-- Whether there is nothing to send as the first message. -/
def isEmpty (m : Message) : Bool :=
  Text.blank m.text && m.stickers.isEmpty

/-- The messages that follow, trimmed, without the blank ones. -/
def deliverable (m : Message) : List Text :=
  (m.followups.map Text.strip).filter fun t => !t.isEmpty

end Message

def resolve (c : Context) (t : Text) (start : Run) : Except Fault Message × Run :=
  let (result, final) := (Resolve.text c maxNestedInstructions t).run.run start
  (result.map fun body => ⟨body, final.effects.stickers, final.effects.followups⟩, final)

end ChatCommands
