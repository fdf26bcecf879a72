import ChatCommands.Proofs.Expr.Relocation

/-!
Every text can be written as a literal, in either quotation mark.

The mark and the backslash are escaped by a backslash, and nothing else is, neither a line break
nor the other mark.
-/

namespace ChatCommands

namespace Text

def escape (mark : Char) (t : Text) : Text :=
  t.flatMap fun c => if c = mark ∨ c = '\\' then ['\\', c] else [c]

/-- A text in quotation marks, as an expression writes it. -/
def quotation (mark : Char) (t : Text) : Text :=
  mark :: (t.escape mark ++ [mark])

theorem escape_cons_special {mark c : Char} (special : c = mark ∨ c = '\\') (t : Text) :
    escape mark (c :: t) = '\\' :: c :: escape mark t := by
  simp [escape, special]

theorem escape_cons_plain {mark c : Char} (plain : ¬ (c = mark ∨ c = '\\')) (t : Text) :
    escape mark (c :: t) = c :: escape mark t := by
  simp [escape, plain]

end Text

namespace Token

theorem dropEscapes_escape {c : Char} (line : c ≠ '\n') (rest : Text) :
    dropEscapes ('\\' :: c :: rest) = c :: dropEscapes rest := by
  simp [dropEscapes, line]

theorem dropEscapes_plain {c : Char} (plain : c ≠ '\\') (rest : Text) :
    dropEscapes (c :: rest) = c :: dropEscapes rest := by
  cases rest <;> simp [dropEscapes, plain]

section Quotation

variable {mark : Char} (quotes : mark = '\x27' ∨ mark = '\x22')
include quotes

/-- What is escaped is never a line break, which a backslash does not take with it. -/
theorem ne_line_of_special {c : Char} (special : c = mark ∨ c = '\\') : c ≠ '\n' := by
  rintro rfl
  rcases quotes with rfl | rfl <;> revert special <;> decide

theorem backslash_ne_mark : '\\' ≠ mark := by
  rcases quotes with rfl | rfl <;> decide

/-- No mark inside an escaped text ends the string, only the one behind it. -/
theorem stringLength_quotation (t rest : Text) :
    stringLength mark (t.escape mark ++ mark :: rest) = some ((t.escape mark).length + 1) := by
  induction t with
  | nil => exact stringLength_mark mark rest
  | cons c t ih =>
    by_cases special : c = mark ∨ c = '\\'
    · rw [Text.escape_cons_special special, List.cons_append, List.cons_append,
        stringLength_escape (backslash_ne_mark quotes) (ne_line_of_special quotes special), ih]
      rfl
    · obtain ⟨other, plain⟩ := not_or.mp special
      rw [Text.escape_cons_plain special, List.cons_append, stringLength_plain other plain, ih]
      rfl

theorem dropEscapes_quotation (t : Text) : dropEscapes (t.escape mark) = t := by
  induction t with
  | nil => rfl
  | cons c t ih =>
    by_cases special : c = mark ∨ c = '\\'
    · rw [Text.escape_cons_special special,
        dropEscapes_escape (ne_line_of_special quotes special), ih]
    · rw [Text.escape_cons_plain special, dropEscapes_plain (not_or.mp special).2, ih]

/-- A quotation is one lexeme, whatever stands behind it. -/
theorem scans_quoted (t : Text) {p : Nat} {s : Text} {us : List Token}
    (behind : Scans (p + (t.quotation mark).length) s us) :
    Scans p (t.quotation mark ++ s) (⟨.string, t.quotation mark, p⟩ :: us) := by
  refine .whole (t.escape mark ++ [mark]) (lexeme_iff.mpr (.string ?_ ?_ quotes ?_)) behind
  · rcases quotes with rfl | rfl <;> decide
  · rcases quotes with rfl | rfl <;> decide
  · rw [List.append_assoc, List.length_append]
    exact stringLength_quotation quotes t s

theorem scans_quotation (t : Text) :
    Scans 0 (t.quotation mark) [⟨.string, t.quotation mark, 0⟩] := by
  have scans := scans_quoted quotes t (p := 0) (s := []) .done
  rwa [List.append_nil] at scans

theorem stringValue_quotation (t : Text) (p : Nat) :
    stringValue ⟨.string, t.quotation mark, p⟩ = t := by
  change dropEscapes (t.escape mark ++ [mark]).dropLast = t
  rw [List.dropLast_concat, dropEscapes_quotation quotes]

end Quotation

end Token

/-- A quotation is an expression of its own where a level is left. -/
theorem Grammar.disjunction_quotation {mark : Char} (quotes : mark = '\x27' ∨ mark = '\x22')
    (source : Nat → Nat → Text) (n p : Nat) (t : Text) :
    Disjunction source (n + 1) [⟨.string, t.quotation mark, p⟩] (.literal (.text t)) := by
  have literal : Primary source n [⟨.string, t.quotation mark, p⟩] _ := .string rfl
  rw [Token.stringValue_quotation quotes] at literal
  have operand := Unary.comparison (by rintro (h | h) <;> cases h) (Comparison.primary literal)
  exact .single (.single operand)

/-- A quotation is one string, and its expression the literal of the text that is quoted. -/
theorem Expr.parse_quotation {mark : Char} (quotes : mark = '\x27' ∨ mark = '\x22') (t : Text) :
    Token.scan (t.quotation mark) = .ok [⟨.string, t.quotation mark, 0⟩] ∧
    Expr.parse (t.quotation mark) = .ok (.literal (.text t)) := by
  have scans := Token.scans_quotation quotes t
  refine ⟨scans.scanAt_eq, ?_⟩
  rw [Expr.parse_eq_parseWithin]
  exact Expr.parseWithin_of_derives scans (Grammar.disjunction_quotation quotes _ 63 0 t)

theorem Expr.parse_quotation_marks :
    Token.scan "'it\\'s\n\\\\ \x7b\x22x\x22\x7d'".toList =
        .ok [⟨.string, "'it\\'s\n\\\\ \x7b\x22x\x22\x7d'".toList, 0⟩] ∧
      Expr.parse "'it\\'s\n\\\\ \x7b\x22x\x22\x7d'".toList =
        .ok (.literal (.text "it's\n\\ \x7b\x22x\x22\x7d".toList)) :=
  Expr.parse_quotation (.inl rfl) "it's\n\\ \x7b\x22x\x22\x7d".toList

end ChatCommands
