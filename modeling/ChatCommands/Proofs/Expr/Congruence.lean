import ChatCommands.Proofs.Expr.Sources

/-!
What an expression reads of a scope.

A scope is read only at the roots of paths, nested ones included, and there the names that the
snapshot gives a value hide variables. Scopes that agree on these roots give the same value.
-/

namespace ChatCommands

namespace Scope

/-- The names that the snapshot gives a value, whatever variables there are. -/
def rootNames : List Text :=
  ["args".toList, "user".toList, "server".toList, "channel".toList, "client".toList]

theorem fixed?_eq_none_iff {s : Snapshot} {name : Text} :
    fixed? s name = none ↔ name ∉ rootNames := by
  unfold fixed? rootNames
  constructor
  · intro unknown
    split_ifs at unknown with h₁ h₂ h₃ h₄ h₅
    simp only [List.mem_cons, h₁, h₂, h₃, h₄, h₅, List.not_mem_nil, or_self, not_false_iff]
  · intro other
    simp only [List.mem_cons, List.not_mem_nil, or_false, not_or] at other
    obtain ⟨h₁, h₂, h₃, h₄, h₅⟩ := other
    simp only [h₁, h₂, h₃, h₄, h₅, if_false]

/-- Whether two scopes give the roots of all these paths the same values. -/
def AgreeOn (s s' : Scope) (paths : List Path) : Prop :=
  ∀ p ∈ paths, s.root? p.root = s'.root? p.root

variable {s s' : Scope} {p : Path} {ps qs : List Path}

theorem agreeOn_cons : s.AgreeOn s' (p :: ps) ↔
    s.root? p.root = s'.root? p.root ∧ s.AgreeOn s' ps :=
  List.forall_mem_cons

theorem agreeOn_append : s.AgreeOn s' (ps ++ qs) ↔ s.AgreeOn s' ps ∧ s.AgreeOn s' qs :=
  List.forall_mem_append

end Scope

section Congruence

variable {s s' : Scope}

mutual

/-- An expression reads a scope only at the roots of its paths. -/
theorem Expr.eval_of_agree : ∀ {e : Expr}, s.AgreeOn s' e.paths → e.eval s = e.eval s'
  | .literal _, _ => rfl
  | .path root steps source, agree => by
    have ⟨here, inside⟩ := Scope.agreeOn_cons.mp agree
    simp only at here
    simp only [Expr.eval, here, Step.walk_of_agree inside]
  | .not e, agree => by
    have operand : e.eval s = e.eval s' := Expr.eval_of_agree agree
    simp only [Expr.eval, operand]
  | .all es, agree => by
    have operands : Expr.evalAll s es = Expr.evalAll s' es := Expr.evalAll_of_agree agree
    simp only [Expr.eval, operands]
  | .any es, agree => by
    have operands : Expr.evalAny s es = Expr.evalAny s' es := Expr.evalAny_of_agree agree
    simp only [Expr.eval, operands]
  | .compare _ _ _, agree => by
    have ⟨left, right⟩ := Scope.agreeOn_append.mp agree
    simp only [Expr.eval, Expr.eval_of_agree left, Expr.eval_of_agree right]

theorem Expr.evalAll_of_agree : ∀ {es : List Expr}, s.AgreeOn s' (Expr.listPaths es) →
    Expr.evalAll s es = Expr.evalAll s' es
  | [], _ => rfl
  | _ :: _, agree => by
    have ⟨first, rest⟩ := Scope.agreeOn_append.mp agree
    simp only [Expr.evalAll, Expr.eval_of_agree first, Expr.evalAll_of_agree rest]

theorem Expr.evalAny_of_agree : ∀ {es : List Expr}, s.AgreeOn s' (Expr.listPaths es) →
    Expr.evalAny s es = Expr.evalAny s' es
  | [], _ => rfl
  | _ :: _, agree => by
    have ⟨first, rest⟩ := Scope.agreeOn_append.mp agree
    simp only [Expr.evalAny, Expr.eval_of_agree first, Expr.evalAny_of_agree rest]

theorem Expr.evalList_of_agree : ∀ {es : List Expr}, s.AgreeOn s' (Expr.listPaths es) →
    Expr.evalList s es = Expr.evalList s' es
  | [], _ => rfl
  | _ :: _, agree => by
    have ⟨first, rest⟩ := Scope.agreeOn_append.mp agree
    simp only [Expr.evalList, Expr.eval_of_agree first, Expr.evalList_of_agree rest]

theorem Step.take_of_agree : ∀ {step : Step} {v : Value}, s.AgreeOn s' step.paths →
    step.take s v = step.take s' v
  | .field _, _, _ => rfl
  | .index key, _, agree => by
    have same : key.eval s = key.eval s' := Expr.eval_of_agree agree
    simp only [Step.take, same]
  | .joinFrom _, _, _ => rfl
  | .call _ args, _, agree => by
    have same : Expr.evalList s args = Expr.evalList s' args := Expr.evalList_of_agree agree
    simp only [Step.take, same]

theorem Step.walk_of_agree : ∀ {steps : List Step} {reached : Option Value},
    s.AgreeOn s' (Step.listPaths steps) → Step.walk s reached steps = Step.walk s' reached steps
  | [], _, _ => rfl
  | _ :: _, none, _ => rfl
  | step :: rest, some v, agree => by
    have ⟨first, later⟩ := Scope.agreeOn_append.mp agree
    have next (found : Option Value) : Step.walk s found rest = Step.walk s' found rest :=
      Step.walk_of_agree later
    simp only [Step.walk, Step.take_of_agree first, next]

end

namespace Scope

variable {t : Text}

theorem resolve_of_agree (agree : ∀ p, Path.parse t = .ok p → s.AgreeOn s' p.expr.paths) :
    s.resolve t = s'.resolve t := by
  unfold resolve
  cases read : Path.parse t with
  | error e => rfl
  | ok p =>
    have ⟨here, inside⟩ := agreeOn_cons.mp (agree p read)
    simp only at here
    simp only [bind, Except.bind, here, Step.walk_of_agree inside]

theorem holds_of_agree (agree : ∀ e, Expr.parse t = .ok e → s.AgreeOn s' e.paths) :
    s.holds t = s'.holds t := by
  unfold holds
  cases read : Expr.parse t with
  | error e => rfl
  | ok e => simp only [Except.bind, Expr.eval_of_agree (agree e read)]

end Scope

end Congruence

end ChatCommands
