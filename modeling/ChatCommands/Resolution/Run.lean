import ChatCommands.Expr.Eval
import ChatCommands.Resolution.Gate
import ChatCommands.Web.Transport

/-!
The state of a resolution and the computations on it.

The state survives an error, so that what was done before it can be seen. Beside what the
instructions change, it records each instruction that was counted, with the nesting depth and the
effects at that moment.
-/

namespace ChatCommands

/-- A random pick that was made. -/
inductive Draw where
  | integer (low high : Int)
  | item (count : Nat)
deriving DecidableEq

/-- A sticker that goes with the message. -/
structure Attachment where
  id : Scalar
  name : Scalar
deriving DecidableEq

/-- What instructions change. `rolls` are the random numbers still to come, zero after the last. -/
structure Effects where
  bindings : List (Text × Value)
  followups : List Text
  stickers : List Attachment
  rolls : List Nat
  draws : List Draw
  transport : Option Transport

/-- An instruction at the moment it was counted. -/
structure Moment where
  text : Text
  depth : Nat
  effects : Effects

structure Run where
  effects : Effects
  steps : Int
  lastInstruction : Option Text
  trace : List Moment

/-- What a resolution reads and never changes. -/
structure Context where
  snapshot : Snapshot
  maxSteps : Int
  requestsEnabled : Bool

abbrev Resolve := ExceptT Fault (StateM Run)

namespace Effects

def roll (e : Effects) : Nat × Effects :=
  (e.rolls.headD 0, { e with rolls := e.rolls.tail })

def drawInteger (e : Effects) (low high : Int) : Int × Effects :=
  let (n, e) := e.roll
  (low + n % (high - low + 1), { e with draws := e.draws ++ [.integer low high] })

/-- A random index below `count`. -/
def drawIndex (e : Effects) (count : Nat) : Nat × Effects :=
  let (n, e) := e.roll
  (n % count, { e with draws := e.draws ++ [.item count] })

def assign (e : Effects) (name : Text) (v : Value) : Effects :=
  { e with bindings := Json.setField name v e.bindings }

def queue (e : Effects) (followup : Text) : Effects :=
  { e with followups := e.followups ++ [followup] }

def attach (e : Effects) (a : Attachment) : Effects :=
  { e with stickers := e.stickers ++ [a] }

end Effects

namespace Run

def start (effects : Effects) : Run :=
  ⟨effects, 0, none, []⟩

def scope (r : Run) (s : Snapshot) : Scope :=
  ⟨s, r.effects.bindings⟩

end Run

namespace Resolve

variable {m : Type → Type} [Monad m] [MonadExceptOf Fault m] [MonadStateOf Run m] {α : Type}

def stop (e : TemplateError) : m α :=
  throw (.template e)

def refuse (e : InstructionError) : m α :=
  stop (.instruction e)

def ofGate (r : Except TemplateError α) : m α :=
  match r with
  | .ok a => pure a
  | .error e => stop e

def ofCrash (r : Except Crash α) : m α :=
  match r with
  | .ok a => pure a
  | .error c => throw (.crash c)

def effects : m Effects := do
  return (← get).effects

def setEffects (e : Effects) : m Unit :=
  modify fun r => { r with effects := e }

def scope (c : Context) : m Scope := do
  return (← get).scope c.snapshot

/-- Counts an instruction that is about to be executed, unless the limit is reached. -/
def count (c : Context) (depth : Nat) (i : Instruction) (a : Arena) : m Unit := do
  modify fun r =>
    { r with
      steps := r.steps + 1
      lastInstruction := some i.text
      trace := r.trace ++ [⟨i.text, depth, r.effects⟩] }
  let r ← get
  if c.maxSteps < r.steps then
    stop (.limit ⟨c.maxSteps, a.text, r.effects.bindings, i.text⟩)

end Resolve

end ChatCommands
