import ChatCommands.Proofs.Expr.Congruence
import ChatCommands.Proofs.Json.Fields
import ChatCommands.Proofs.Resolution.Arguments

/-!
What an assignment leaves alone.

An assignment changes the value of one root, unless the snapshot hides it. So what a text resolves
to, and whether it holds, stays the same where no path in it starts at the name that was set.
-/

namespace ChatCommands

/-- Whether some path of an expression, a nested one included, starts at a name. -/
def Expr.StartsAt (e : Expr) (name : Text) : Prop :=
  ∃ p ∈ e.paths, p.root = name

namespace Run

open Scope (rootNames)

variable (r : Run) (s : Snapshot) (n : Text) (v : Value)

theorem root?_assign {name : Text} (other : name ∈ rootNames ∨ name ≠ n) :
    ((r.assign n v).scope s).root? name = (r.scope s).root? name := by
  unfold Scope.root?
  cases fixed : Scope.fixed? s name with
  | some w => simp only [scope, fixed, Option.orElse_some]
  | none =>
    have free : name ∉ rootNames := Scope.fixed?_eq_none_iff.mp fixed
    have apart : name ≠ n := other.resolve_left free
    simp only [scope, fixed, Option.orElse_none]
    exact Json.lookup_setField_ne apart v r.effects.bindings

theorem root?_assign_self (free : n ∉ rootNames) :
    ((r.assign n v).scope s).root? n = some v := by
  have unknown : Scope.fixed? s n = none := Scope.fixed?_eq_none_iff.mpr free
  simp only [Scope.root?, scope, unknown, Option.orElse_none]
  exact Json.lookup_setField_self n v r.effects.bindings

/-- What follows if scopes agree on all that is read is so after an assignment, or the name is read
and the snapshot does not hide it. -/
theorem same_or_read {ε α : Type} {read : Except ε α} {expr : α → Expr} {same : Prop}
    (congr : (∀ a, read = .ok a → ((r.assign n v).scope s).AgreeOn (r.scope s) (expr a).paths) →
      same) : same ∨ n ∉ rootNames ∧ ∃ a, read = .ok a ∧ (expr a).StartsAt n := by
  by_cases changed : n ∉ rootNames ∧ ∃ a, read = .ok a ∧ (expr a).StartsAt n
  · exact .inr changed
  · apply Or.inl
    apply congr
    intro a parsed p member
    apply root?_assign
    by_cases hidden : p.root ∈ rootNames
    · exact .inl hidden
    · apply Or.inr
      rintro rfl
      exact changed ⟨hidden, a, parsed, p, member, rfl⟩

/-- An assignment changes what a text resolves to, or whether it holds, only where a path in it
starts at the name and the snapshot does not hide that; so never where all its paths start at names
of the snapshot. -/
theorem assign_frame (t : Text) :
    (((r.assign n v).scope s).resolve t = (r.scope s).resolve t ∨
      n ∉ rootNames ∧ ∃ p, Path.parse t = .ok p ∧ p.expr.StartsAt n) ∧
    (((r.assign n v).scope s).holds t = (r.scope s).holds t ∨
      n ∉ rootNames ∧ ∃ e, Expr.parse t = .ok e ∧ e.StartsAt n) ∧
    ((∀ p, Path.parse t = .ok p → ∀ q ∈ p.expr.paths, q.root ∈ rootNames) →
      ((r.assign n v).scope s).resolve t = (r.scope s).resolve t) ∧
    ((∀ e, Expr.parse t = .ok e → ∀ q ∈ e.paths, q.root ∈ rootNames) →
      ((r.assign n v).scope s).holds t = (r.scope s).holds t) := by
  have resolved := same_or_read r s n v fun agree => Scope.resolve_of_agree (t := t) agree
  have held := same_or_read r s n v fun agree => Scope.holds_of_agree (t := t) agree
  constructor
  · exact resolved
  constructor
  · exact held
  constructor
  · intro fixed
    apply resolved.resolve_right
    rintro ⟨free, p, parsed, q, member, rfl⟩
    exact free (fixed p parsed q member)
  · intro fixed
    apply held.resolve_right
    rintro ⟨free, e, parsed, q, member, rfl⟩
    exact free (fixed e parsed q member)

end Run

end ChatCommands
