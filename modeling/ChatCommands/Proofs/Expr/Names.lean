import ChatCommands.Proofs.Expr.Totality
import ChatCommands.Resolution.Verb

/-!
The two plain ways to refer to what a scope holds: the name of a variable, and the number of an
argument.
-/

namespace ChatCommands

open Grammar (indexAt)
open Resolve (isVariableName)

namespace Token

variable {c : Char}

theorem isNameChar_of_isNameStart (start : isNameStart c = true) : isNameChar c = true := by
  rw [isNameChar, start, Bool.true_or]

theorem isNameChar_of_alphanum (letter : (c.isAlphanum || c == '_') = true) :
    isNameChar c = true := by
  simp only [Char.isAlphanum, Bool.or_eq_true] at letter
  rcases letter with (alpha | digit) | line
  · simp [isNameChar, isNameStart, alpha]
  · simp [isNameChar, digit]
  · simp [isNameChar, isNameStart, line]

theorem isNameChar_ascii (named : isNameChar c = true) : c.toNat < 128 := by
  simp only [isNameChar, isNameStart, Char.isAlpha, Char.isUpper, Char.isLower, Char.isDigit,
    Bool.or_eq_true, Bool.and_eq_true, decide_eq_true_eq, UInt32.le_iff_toNat_le, ge_iff_le,
    beq_iff_eq] at named
  change ((((65 ≤ c.toNat ∧ c.toNat ≤ 90) ∨ (97 ≤ c.toNat ∧ c.toNat ≤ 122)) ∨ c = '_') ∨
    c = '$') ∨ (48 ≤ c.toNat ∧ c.toNat ≤ 57) at named
  rcases named with (((upper | lower) | rfl) | rfl) | digit
  · omega
  · omega
  · decide
  · decide
  · omega

theorem isNameChar_visible (named : isNameChar c = true) : Text.isBlank c = false := by
  have checked : ∀ n < 128, isNameChar (Char.ofNat n) = true →
      Text.isBlank (Char.ofNat n) = false := by decide +kernel
  have known := checked c.toNat (isNameChar_ascii named)
  rw [Char.ofNat_toNat] at known
  exact known named

theorem isNameStart_digit (start : isNameStart c = true) : Text.isDigit c = false := by
  have checked : ∀ n < 128, isNameStart (Char.ofNat n) = true →
      Text.isDigit (Char.ofNat n) = false := by decide +kernel
  have known := checked c.toNat (isNameChar_ascii (isNameChar_of_isNameStart start))
  rw [Char.ofNat_toNat] at known
  exact known start

theorem lexeme_of_isNameStart (start : isNameStart c = true) (rest : Text) :
    lexeme c rest = some (some .name, (rest.takeWhile isNameChar).length) := by
  have quoted : ¬ (c = '\x27' ∨ c = '\x22') := by
    rintro (rfl | rfl) <;> cases start
  have visible := isNameChar_visible (isNameChar_of_isNameStart start)
  rw [lexeme, visible, isNameStart_digit start, start, if_neg quoted]
  rfl

end Token

section Variable

variable {t : Text} (named : isVariableName t = true)
include named

theorem Text.isVariableName_cons : ∃ c rest, t = c :: rest ∧ Token.isNameStart c = true ∧
    ∀ d ∈ c :: rest, Token.isNameChar d = true := by
  cases t with
  | nil => cases named
  | cons c rest =>
    simp only [isVariableName, Bool.and_eq_true, List.all_eq_true] at named
    have start : Token.isNameStart c = true := by rw [Token.isNameStart, named.1, Bool.true_or]
    refine ⟨c, rest, rfl, start, List.forall_mem_cons.mpr ⟨?_, fun d member => ?_⟩⟩
    · exact Token.isNameChar_of_isNameStart start
    · exact Token.isNameChar_of_alphanum (named.2 d member)

theorem Token.scan_name : scan t = .ok [⟨.name, t, 0⟩] := by
  obtain ⟨c, rest, rfl, start, letters⟩ := Text.isVariableName_cons named
  have all : rest.takeWhile isNameChar = rest :=
    List.takeWhile_eq_self_iff.mpr (List.forall_mem_cons.mp letters).2
  rw [scan, scanAt, lexeme_of_isNameStart start, all]
  dsimp only
  rw [List.drop_length, List.take_length, scanAt]
  rfl

theorem Path.parse_name : ∃ source, Path.parse t = .ok ⟨t, [], source⟩ := by
  obtain ⟨c, rest, same, _, letters⟩ := Text.isVariableName_cons named
  have trimmed : Text.strip t = t := by
    refine Text.strip_of_visible fun d member => ?_
    rw [same] at member
    exact Token.isNameChar_visible (letters d member)
  rw [Path.parse, trimmed, Token.scan_name named]
  exact ⟨_, rfl⟩

/-- The name of a variable leads to the root of that name. -/
theorem Scope.resolve_name (scope : Scope) : scope.resolve t = .ok (scope.root? t) := by
  obtain ⟨source, parsed⟩ := Path.parse_name named
  rw [scope.resolve_of_parse parsed, Step.walk]

end Variable

section Argument

/-- The path of the argument with a number. -/
def argumentPath (digits : Text) : Text :=
  "args.".toList ++ digits

theorem argumentPath_eq (digits : Text) :
    argumentPath digits = 'a' :: 'r' :: 'g' :: 's' :: '.' :: digits := rfl

variable {digits : Text} (whole : digits.Digits)
include whole

theorem Token.scan_argumentPath : scan (argumentPath digits) =
    .ok [⟨.name, "args".toList, 0⟩, ⟨.op, ".".toList, 4⟩, ⟨.number, digits, 5⟩] := by
  have letters : (('r' :: 'g' :: 's' :: '.' :: digits).takeWhile isNameChar).length = 3 := rfl
  have dot : lexeme '.' digits = some (some .op, 0) := rfl
  have behind : scanAt 4 ('.' :: digits) = .ok [⟨.op, ['.'], 4⟩, ⟨.number, digits, 5⟩] := by
    rw [scanAt, dot]
    dsimp only
    rw [List.drop_zero, scanAt_digits whole]
    rfl
  rw [scan, argumentPath_eq, scanAt, lexeme_of_isNameStart rfl, letters]
  change (scanAt 4 ('.' :: digits)).map _ = _
  rw [behind]
  rfl

theorem Path.parse_argumentPath {n : Int} (number : Numeral.readInt digits = some n) :
    ∃ source, Path.parse (argumentPath digits) = .ok ⟨"args".toList, [indexAt n], source⟩ := by
  have trimmed : Text.strip (argumentPath digits) = argumentPath digits := by
    rw [argumentPath_eq]
    refine Text.strip_of_visible ?_
    simp only [List.forall_mem_cons]
    exact ⟨rfl, rfl, rfl, rfl, rfl, fun c member => Text.isBlank_of_isDigit (whole.2 c member)⟩
  let numeral : Token := ⟨.number, digits, 5⟩
  have step (inner : Parse Expr) :
      Parse.dottedStep inner [numeral] = .ok (([indexAt n], numeral.stop), []) := by
    rw [Parse.dottedStep_number rfl]
    exact Parse.numericStep_whole (whole.ne (by decide)) number .nil
  have steps (inner : Parse Expr) :
      Parse.steps inner 3 4 [⟨.op, ".".toList, 4⟩, numeral] =
        .ok (([indexAt n], numeral.stop), []) :=
    Parse.steps_dotted rfl (step inner) (Parse.steps_none 2 _ .nil)
  have read (source : Nat → Nat → Text) (inner : Parse Expr) :
      Parse.path source inner [⟨.name, "args".toList, 0⟩, ⟨.op, ".".toList, 4⟩, numeral] =
        .ok (⟨"args".toList, [indexAt n], source 0 numeral.stop⟩, []) := by
    rw [Parse.path, if_pos rfl]
    exact bind_eq_ok.mpr ⟨_, steps inner, rfl⟩
  refine ⟨Text.slice (argumentPath digits) 0 numeral.stop, ?_⟩
  rw [Path.parse, trimmed, Token.scan_argumentPath whole]
  exact bind_eq_ok.mpr ⟨_, rfl, bind_eq_ok.mpr ⟨_, read _ _, rfl⟩⟩

/-- The number of an argument leads to its text. -/
theorem Scope.resolve_argumentPath (scope : Scope) {n : Nat}
    (number : Numeral.readInt digits = some (n : Int)) {t : Text}
    (given : scope.snapshot.args[n]? = some t) :
    scope.resolve (argumentPath digits) = .ok (some (.text t)) := by
  obtain ⟨source, parsed⟩ := Path.parse_argumentPath whole number
  let arguments : List Item := scope.snapshot.args.map fun t => .json (.text t)
  have root : scope.root? "args".toList = some (.tuple arguments) := rfl
  have item : Value.itemAt arguments n = .text t := by
    rw [Value.itemAt, if_neg (by omega), Int.toNat_natCast, List.getElem?_map, given]
    rfl
  have taken : (indexAt n).take scope (.tuple arguments) = .ok (some (.text t)) := by
    rw [indexAt, Step.take, Expr.eval, ← item]
    rfl
  have walked : Step.walk scope (scope.root? "args".toList) [indexAt n] =
      .ok (some (.text t)) := by
    rw [root, Step.walk, if_neg (by simp [Value.isDeadEnd]), taken]
    change Step.walk scope (some (.text t)) [] = _
    rw [Step.walk]
  rw [scope.resolve_of_parse parsed, walked]

end Argument

end ChatCommands
