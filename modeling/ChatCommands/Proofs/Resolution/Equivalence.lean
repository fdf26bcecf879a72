import ChatCommands.Proofs.Resolution.Local
import ChatCommands.Proofs.Resolution.Simulation

/-!
What a resolution does not see: the instructions that were counted before it.

From two states with the same effects and the same number of steps it gives the same, and what it
leaves differs again in the record of instructions only.
-/

namespace ChatCommands

/-- Whether two states differ at most in the record of what was counted. -/
structure Run.Equivalent (r r' : Run) : Prop where
  effects : r.effects = r'.effects
  steps : r.steps = r'.steps

namespace Resolve

variable {α β : Type}

/-- Whether two computations give the same from equivalent states, and leave equivalent ones. -/
def Equivalent (x y : Resolve α) : Prop :=
  ∀ r r', r.Equivalent r' →
    (x.outcome r).1 = (y.outcome r').1 ∧ (x.outcome r).2.Equivalent (y.outcome r').2

namespace Equivalent

theorem pure (a : α) : Equivalent (pure a) (pure a) :=
  fun _ _ same => ⟨rfl, same⟩

theorem throw (f : Fault) : Equivalent (throw f : Resolve α) (throw f) :=
  fun _ _ same => ⟨rfl, same⟩

theorem bind {x y : Resolve α} {f g : α → Resolve β} (first : Equivalent x y)
    (second : ∀ a, Equivalent (f a) (g a)) : Equivalent (x >>= f) (y >>= g) := by
  intro r r' same
  obtain ⟨result, later⟩ := first r r' same
  rw [outcome_bind, outcome_bind]
  rcases hx : x.outcome r with ⟨e | a, next⟩ <;>
    rcases hy : y.outcome r' with ⟨e' | a', next'⟩ <;>
    simp only [hx, hy] at result later
  · cases result
    exact ⟨rfl, later⟩
  · cases result
  · cases result
  · cases result
    exact second a next next' later

theorem scope (c : Context) : Equivalent (scope c) (scope c) := by
  intro r r' same
  have alike : r.scope c.snapshot = r'.scope c.snapshot := by
    rw [Run.scope, Run.scope, same.effects]
  exact ⟨congrArg Except.ok alike, same⟩

/-- The limit is tested on the steps alone. -/
theorem count (c : Context) (depth : Nat) (i : Instruction) (a : Arena) :
    Equivalent (count c depth i a) (count c depth i a) := by
  intro r r' same
  rw [count_outcome, count_outcome]
  constructor
  · simp only [same.steps, same.effects]
  · exact ⟨same.effects, congrArg (· + 1) same.steps⟩

def simulation : Simulation Resolve where
  rel := Equivalent
  pure := pure
  throw := throw
  bind := bind
  effects _ _ same := ⟨congrArg Except.ok same.effects, same⟩
  setEffects _ _ _ same := ⟨rfl, rfl, same.steps⟩
  scope := scope
  count := count

section Levels

variable {c : Context} {inner : Text → Resolve Text} (nested : ∀ t, Equivalent (inner t) (inner t))
include nested

theorem walk (depth : Nat) (blocks : List Block) (rs : List Region) (a : Arena) :
    Equivalent (Resolve.walk c inner depth blocks rs a)
      (Resolve.walk c inner depth blocks rs a) := by
  induction rs generalizing a with
  | nil => exact pure a
  | cons r rest ih =>
    unfold Resolve.walk
    split
    · exact ih a
    · apply bind (count c depth _ a)
      intro _
      split
      · apply bind (simulation.condition nested c _)
        intro holds
        split
        · exact ih _
        · exact throw _
      · exact bind (simulation.perform nested c _ _) fun _ => ih _

theorem level (depth : Nat) (t : Text) :
    Equivalent (Resolve.level c inner depth t) (Resolve.level c inner depth t) := by
  unfold Resolve.level
  split
  · exact throw _
  · exact bind (walk nested depth _ _ _) fun _ => pure _

end Levels

/-- No resolution looks at what was counted before it. -/
theorem text (c : Context) (levels : Nat) (t : Text) :
    Equivalent (Resolve.text c levels t) (Resolve.text c levels t) := by
  induction levels generalizing t with
  | zero => exact level (fun _ => throw _) _ t
  | succ levels ih => exact level ih _ t

end Equivalent

end Resolve

end ChatCommands
