import Mathlib
import ChatCommands.Proofs.Expr.Acceptance
import ChatCommands.Proofs.Expr.Evaluation
import ChatCommands.Proofs.Text.Strip

/-!
Every condition has a truth value and every path leads to a value or to none, in any scope.

Two things can go wrong. A numeral of the text has more digits than are read, or a root of the
scope is a process whose uptime is no finite number.
-/

namespace ChatCommands

namespace Scope

/-- The crash of asking some root of a scope for the text of an uptime. -/
def Stopped (scope : Scope) (e : Crash) : Prop :=
  ∃ name v, scope.root? name = some v ∧ v.Untimed e

/-- Whatever a scope holds, an evaluation reaches its roots and open values only. -/
theorem bounds (scope : Scope) :
    scope.Bounds (fun v => v.Open ∨ ∃ name, scope.root? name = some v) scope.Stopped where
  shown _ := .inl
  root found := .inr ⟨_, found⟩
  untimed := by
    rintro v e (shown | ⟨name, found⟩) untimed
    -- An open value is no process, so that it has no uptime to ask for.
    · obtain ⟨seconds, rfl, _⟩ := untimed
      exact shown.elim
    · exact ⟨name, v, found, untimed⟩

/-- In every scope each text has a truth value as a condition and leads, as a path, to a value or to
none, apart from the crash of a numeral in it that is too long and of a process without a finite
uptime among the roots. -/
theorem evaluation_total (scope : Scope) (t : Text) :
    ((∃ b, scope.holds t = .ok b) ∨
      ∃ e, scope.holds t = .error e ∧ (t.Unreadable e ∨ scope.Stopped e)) ∧
    ((∃ found, scope.resolve t = .ok found) ∨
      ∃ e, scope.resolve t = .error e ∧ ((Text.strip t).Unreadable e ∨ scope.Stopped e)) := by
  constructor
  · cases result : scope.holds t with
    | ok b => exact .inl ⟨b, rfl⟩
    | error e => exact .inr ⟨e, rfl, holds_crash scope.bounds result⟩
  · have read := resolve_yields scope.bounds t
    cases result : scope.resolve t with
    | ok found => exact .inl ⟨found, rfl⟩
    | error e =>
      rw [result] at read
      exact .inr ⟨e, rfl, read⟩

end Scope

namespace Token

theorem lexeme_digits {c : Char} {rest : Text} (digits : Text.Digits (c :: rest)) :
    lexeme c rest = some (some .number, rest.length) := by
  obtain ⟨first, others⟩ := List.forall_mem_cons.mp digits.2
  have all : rest.takeWhile Text.isDigit = rest := List.takeWhile_eq_self_iff.mpr others
  have whole : numberLength rest = rest.length := by
    rw [numberLength, all, List.drop_length]
  rw [lexeme, Text.isBlank_of_isDigit first, first, whole]
  rfl

theorem scanAt_digits {t : Text} (digits : t.Digits) (position : Nat) :
    scanAt position t = .ok [⟨.number, t, position⟩] := by
  cases t with
  | nil => exact absurd rfl digits.1
  | cons c rest =>
    rw [scanAt, lexeme_digits digits]
    dsimp only
    rw [List.drop_length, List.take_length, scanAt]
    rfl

end Token

namespace Parse

variable {source : Nat → Nat → Text} {t : Token}

theorem disjunction_crash (number : t.kind = .number) {e : Crash} (crash : t.numberValue = .error e)
    (rest : List Token) (level : Nat) :
    disjunction source (level + 1) (t :: rest) = .error (.crash e) := by
  have plain : ¬ (t.isMark "!" || t.isMark "not") = true := by
    rw [isMark_of_kind (by simp [number]) (by simp [number]),
      isMark_of_kind (by simp [number]) (by simp [number])]
    exact Bool.false_ne_true
  have first (inner : Parse Expr) : primary source inner (t :: rest) = .error (.crash e) := by
    unfold primary numberLiteral
    simp only [number, crash]
    rfl
  have compared (inner : Parse Expr) : comparison source inner (t :: rest) = .error (.crash e) := by
    rw [comparison, first]
    rfl
  have operand : unary source level (t :: rest) = .error (.crash e) := by
    cases level with
    | zero => rw [unary, unaryWith, if_neg plain, compared]
    | succ level => rw [unary, unaryWith, if_neg plain, compared]
  rw [disjunction, disjunctionOf_eq, separated, conjunctionOf, separated, operand]
  rfl

end Parse

theorem Scope.holds_overlong (scope : Scope) {t : Text} (digits : t.Digits)
    (long : Numeral.maxDigits < t.length) : scope.holds t = .error .tooManyDigits := by
  have visible : Text.blank t = false := by
    rw [Text.blank, Text.strip_of_visible fun c member => Text.isBlank_of_isDigit (digits.2 c member)]
    exact List.isEmpty_eq_false_iff.mpr digits.1
  have refused : Numeral.readInt t = none := by
    rw [← Option.not_isSome_iff_eq_none, Numeral.readInt_digits digits]
    exact Nat.not_le.mpr long
  have value : Token.numberValue ⟨.number, t, 0⟩ = .error .tooManyDigits := by
    rw [Token.numberValue, if_neg (digits.ne (by decide)), refused]
  have parsed : Expr.parse t = .error (.crash .tooManyDigits) := by
    have read : Parse.disjunction (Text.slice t) (63 + 1) [⟨.number, t, 0⟩] =
        .error (.crash .tooManyDigits) := Parse.disjunction_crash rfl value [] 63
    rw [Expr.parse, Token.scan, Token.scanAt_digits digits, Parse.maxNesting]
    change (Parse.disjunction (Text.slice t) (63 + 1) _ >>= Parse.finish) = _
    rw [read]
    rfl
  rw [holds, visible, parsed]
  rfl

theorem Scope.resolve_uptime (scope : Scope) {e : Crash}
    (untimed : Uptime.text scope.snapshot.uptime = .error e) :
    scope.resolve "client.uptime".toList = .error e := by
  have parsed : Path.parse "client.uptime".toList =
      .ok ⟨"client".toList, [.field "uptime".toList], "client.uptime".toList⟩ := by cbv
  have root : scope.root? "client".toList = some (.record (.client scope.snapshot.uptime)) := rfl
  have exported : (Record.client scope.snapshot.uptime).exports.lookup "uptime".toList =
      some (.uptime scope.snapshot.uptime) := rfl
  have taken : (Step.field "uptime".toList).take scope (.record (.client scope.snapshot.uptime)) =
      .error (.crash e) := by
    rw [Step.take, Value.field?, Record.field?, exported]
    dsimp only
    rw [Export.value, untimed]
    rfl
  have walked : Step.walk scope (scope.root? "client".toList) [.field "uptime".toList] =
      .error (.crash e) := by
    rw [root, Step.walk, if_neg (by simp [Value.isDeadEnd]), taken]
    rfl
  rw [scope.resolve_of_parse parsed, walked]

/-- A numeral of more than 4300 digits makes a condition crash, and an infinite uptime a path. -/
theorem overlong_condition_crashes :
    (¬ ∀ (scope : Scope) (t : Text), ∃ b, scope.holds t = .ok b) ∧
    ¬ ∀ (scope : Scope) (t : Text), ∃ found, scope.resolve t = .ok found := by
  let scope (uptime : Binary64) : Scope := ⟨⟨[], ⟨.null, [], [], [], [], [], false⟩,
    ⟨.null, .null, 0, none, .null, .null, none, none, none, [], [], [], []⟩,
    ⟨.null, [], [], .null⟩, uptime⟩, []⟩
  constructor
  · intro claim
    have digits : Text.Digits (List.replicate 4301 '9') := by
      refine ⟨List.cons_ne_nil _ _, fun c member => ?_⟩
      rw [List.eq_of_mem_replicate member]
      decide
    have crash := (scope (.finite false 0 0)).holds_overlong digits
      (by rw [List.length_replicate]; decide)
    obtain ⟨b, held⟩ := claim (scope (.finite false 0 0)) (List.replicate 4301 '9')
    rw [crash] at held
    cases held
  · intro claim
    have crash := (scope (.infinite false)).resolve_uptime (e := .infiniteInteger) rfl
    obtain ⟨found, led⟩ := claim (scope (.infinite false)) "client.uptime".toList
    rw [crash] at led
    cases led

end ChatCommands
