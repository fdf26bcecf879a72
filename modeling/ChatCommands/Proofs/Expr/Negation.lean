import Mathlib
import ChatCommands.Expr.Eval
import ChatCommands.Proofs.Expr.Relocation
import ChatCommands.Proofs.Template.Layout
import ChatCommands.Proofs.Text.Strip

/-!
A condition in parentheses with an exclamation mark in front of it is the negation of the condition.

The text around it takes two levels more. A condition without a value does not hold, and neither
does its negation; of a condition with a value exactly one of the two holds.
-/

namespace ChatCommands

open Token (Scans Closed)

/-! ### The text of a negation -/

/-- The condition that negates a condition. -/
def Text.negation (t : Text) : Text :=
  "!(".toList ++ (t ++ ")".toList)

section Negation

variable {t : Text} {ts : List Token} {e : Expr} {n : Nat}

theorem Token.scans_negation (scans : Scans 0 t ts) : Scans 0 t.negation
    (⟨.op, "!".toList, 0⟩ :: ⟨.op, "(".toList, 1⟩ ::
      (ts.map (Token.moved 0 2) ++ [⟨.op, ")".toList, 2 + t.length⟩])) := by
  have closed : Closed ")".toList := by
    rintro _ ⟨⟩
    rfl
  have closing : Scans (2 + t.length) ")".toList [⟨.op, ")".toList, 2 + t.length⟩] :=
    .token (n := 0) rfl .done
  have inside := (scans.moved 2).append closed closing
  exact .token (n := 0) rfl (.token (n := 0) rfl inside)

theorem Grammar.agrees_negation (scans : Scans 0 t ts) :
    Grammar.Agrees (Text.slice t) (Text.slice t.negation) 0 2 ts := by
  intro x _ y last
  obtain ⟨_, short⟩ := scans.inside y last
  rw [Nat.zero_add] at short
  have starts : (x.moved 0 2).position = "!(".toList.length + x.position := Nat.add_comm _ _
  have stops : (y.moved 0 2).stop = "!(".toList.length + y.stop := by
    change y.position + 2 + y.text.length = 2 + (y.position + y.text.length)
    omega
  rw [starts, stops, Text.negation, Text.slice_append_right, Text.slice_append_left short]

theorem Expr.parse_negation (read : Expr.parseWithin n t = .ok e) :
    Expr.parseWithin (n + 2) t.negation = .ok (.not e) := by
  obtain ⟨ts, scans, derived⟩ := Expr.derives_of_parseWithin read
  have inside := derived.moved (k := 0) (Grammar.agrees_negation scans)
  rw [Nat.zero_add] at inside
  have group : Grammar.Primary (Text.slice t.negation) n (⟨.op, "(".toList, 1⟩ ::
      (ts.map (Token.moved 0 2) ++ [⟨.op, ")".toList, 2 + t.length⟩])) e :=
    .group rfl rfl inside rfl
  have operand := Grammar.Unary.comparison (by rintro (h | h) <;> cases h)
    (Grammar.Comparison.primary group)
  have negated : Grammar.Unary (Text.slice t.negation) (n + 1) (⟨.op, "!".toList, 0⟩ :: _)
      (.not e) := .negation (.inl rfl) operand
  exact Expr.parseWithin_of_derives (Token.scans_negation scans) (.single (.single negated))

end Negation

/-! ### The truth of a negation -/

namespace Token

theorem scans_blank {p : Nat} {t : Text} {ts : List Token} (scans : Scans p t ts)
    (blank : ∀ c ∈ t, Text.isBlank c = true) : ts = [] := by
  induction scans with
  | done => rfl
  | blank found later ih =>
    exact ih fun c member => blank c (List.mem_cons_of_mem _ (List.mem_of_mem_drop member))
  | token found later =>
    rw [lexeme, if_pos (blank _ List.mem_cons_self)] at found
    cases found

end Token

/-- What a condition holds as, given what its expression evaluates to. -/
def Scope.verdict : Except Halt Value → Except Crash Bool
  | .ok v => .ok v.truth
  | .error (.eval _) => .ok false
  | .error (.crash c) => .error c

theorem Scope.holds_of_parse (scope : Scope) {t : Text} {e : Expr} (read : Expr.parse t = .ok e) :
    scope.holds t = Scope.verdict (e.eval scope) := by
  have visible : Text.blank t ≠ true := fun blank => by
    obtain ⟨ts, scans, derived⟩ := Expr.derives_of_parseWithin read
    obtain ⟨_, _, rfl, _⟩ := Parse.opens_disjunction derived (Token.named_scanAt scans.scanAt_eq)
    cases Token.scans_blank scans (Text.isBlank_of_blank blank)
  rw [holds, if_neg visible, read]
  rfl

theorem Expr.eval_not (scope : Scope) (e : Expr) :
    Scope.verdict ((Expr.not e).eval scope) = match e.eval scope with
      | .ok v => .ok !v.truth
      | .error h => Scope.verdict (.error h) := by
  rw [eval]
  cases e.eval scope with
  | ok v => rfl
  | error h => rfl

/-- Of a condition and its negation, one holds and the other does not when the condition has a
value, and neither holds when it has none. The levels that the negation takes have to be left. -/
theorem Scope.holds_negation (scope : Scope) {t : Text} {e : Expr}
    (read : Expr.parseWithin 62 t = .ok e) :
    Expr.parse t = .ok e ∧
    (match e.eval scope with
      | .ok v => scope.holds t = .ok v.truth ∧ scope.holds t.negation = .ok !v.truth
      | .error (.eval _) => scope.holds t = .ok false ∧ scope.holds t.negation = .ok false
      | .error (.crash c) => scope.holds t = .error c ∧ scope.holds t.negation = .error c) ∧
    ¬ (scope.holds t = .ok true ∧ scope.holds t.negation = .ok true) ∧
    (Xor (scope.holds t = .ok true) (scope.holds t.negation = .ok true) ↔
      ∃ v, e.eval scope = .ok v) := by
  have plain : Expr.parse t = .ok e := Expr.parseWithin_add read 2
  have negated : Expr.parse t.negation = .ok (.not e) := Expr.parse_negation read
  refine ⟨plain, ?_⟩
  rw [scope.holds_of_parse plain, scope.holds_of_parse negated, Expr.eval_not]
  cases e.eval scope with
  | ok v => cases value : v.truth <;> simp [verdict, value, Xor]
  | error h =>
    cases h with
    | eval x => simp [verdict, Xor]
    | crash c => simp [verdict, Xor]

theorem Scope.holds_negation_variables :
    let scope : Scope := ⟨⟨[], ⟨.null, [], [], [], [], [], false⟩,
      ⟨.null, .null, 0, none, .null, .null, none, none, none, [], [], [], []⟩,
      ⟨.null, [], [], .null⟩, .finite false 0 0⟩, [("x".toList, .scalar (.int 3))]⟩
    (Expr.parseWithin 62 "x > 2".toList = .ok (.compare .gt (.path "x".toList [] "x".toList)
        (.literal (.scalar (.int 2)))) ∧
      scope.holds "x > 2".toList = .ok true ∧ scope.holds "!(x > 2)".toList = .ok false) ∧
    Expr.parseWithin 62 "y".toList = .ok (.path "y".toList [] "y".toList) ∧
      scope.holds "y".toList = .ok false ∧ scope.holds "!(y)".toList = .ok false := by
  intro scope
  have read : Expr.parseWithin 62 "x > 2".toList = .ok (.compare .gt
      (.path "x".toList [] "x".toList) (.literal (.scalar (.int 2)))) := by cbv
  have missing : Expr.parseWithin 62 "y".toList = .ok (.path "y".toList [] "y".toList) := by cbv
  exact ⟨⟨read, (scope.holds_negation read).2.1⟩, missing, (scope.holds_negation missing).2.1⟩

end ChatCommands
