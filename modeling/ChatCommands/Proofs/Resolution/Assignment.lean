import ChatCommands.Proofs.Resolution.Bodies
import ChatCommands.Proofs.Resolution.Course
import ChatCommands.Proofs.Resolution.Equivalence
import ChatCommands.Proofs.Resolution.Frame
import ChatCommands.Proofs.Resolution.Verbatim
import ChatCommands.Proofs.Template.Cutting

/-!
A variable that is set and read back.

The value stands behind a semicolon or behind an equals sign. Both ways cut the same template out of
the instruction, and what it gives is read back as it is: it is put in after the text was scanned,
and never unescaped.
-/

namespace ChatCommands

open Piece Resolve

/-- What stands in an assignment before the value, with the mark between the two at its end. -/
def assigning (mark : Char) (name : Text) : Text :=
  "set".toList ++ ';' :: (name ++ [mark])

/-- The instruction that sets a name to a value. -/
def assignment (mark : Char) (name value : Text) : Text :=
  Text.braced (assigning mark name ++ value)

/-- The instructions that show a variable. Its name alone is one unless it is a keyword. -/
inductive Shows (name : Text) : Text → Prop where
  | var : Shows name (Text.braced ("var".toList ++ ';' :: name))
  | reference : name ∉ Verb.keywords.map Prod.fst → Shows name (Text.braced name)

/-- Behind a keyword and a semicolon stand the arguments. -/
theorem Instruction.decode_keyword {keyword : Text} (known : Verb.ofKeyword keyword ≠ .reference)
    (rest : Text) : decode (Text.braced (keyword ++ ';' :: rest)) =
      ⟨keyword, splitArguments rest, Text.braced (keyword ++ ';' :: rest)⟩ := by
  have words : ∀ k ∈ Verb.keywords, Text.strip k.1 = k.1 ∧ ';' ∉ k.1 := by decide
  have trimmed : Text.strip keyword = keyword := (words _ (Verb.mem_keywords known)).1
  have uncut : ';' ∉ keyword := (words _ (Verb.mem_keywords known)).2
  have plain : ∀ c ∈ keyword, c ≠ '\\' ∧ c ≠ '{' ∧ c ≠ '}' := by
    apply Verb.keyword_plain
    rwa [trimmed]
  rw [decode_braced, cutParts_plain plain uncut, cutParts_semicolon, List.append_nil, trimmed]
  rfl

section Words

variable {name : Text} (named : name.IsIdentifier)
include named

theorem Text.IsIdentifier.letters : ∀ c ∈ name, Token.isNameChar c = true := by
  obtain ⟨c, rest, rfl, _, letters⟩ := isVariableName_cons named.variable
  exact letters

theorem Text.IsIdentifier.foreign {c : Char} (other : Token.isNameChar c = false) : c ∉ name := by
  intro member
  rw [named.letters c member] at other
  cases other

theorem Text.IsIdentifier.plain : ∀ c ∈ name, c ≠ '\\' ∧ c ≠ '{' ∧ c ≠ '}' := by
  intro d member
  refine ⟨?_, ?_, ?_⟩ <;> rintro rfl <;> exact named.foreign (by decide) member

theorem Text.IsIdentifier.strip : Text.strip name = name :=
  strip_of_visible fun d member => Token.isNameChar_visible (named.letters d member)

theorem Shows.path {t : Text} (h : Shows name t) : (Instruction.decode t).path? = some name := by
  have whole := cutParts_whole named.plain (named.foreign (by decide))
  cases h with
  | var =>
    have verb : Verb.ofKeyword "var".toList = .var := by decide
    rw [Instruction.decode_keyword (by decide), splitArguments, whole, Instruction.path?, verb]
    simp [Instruction.rest, Text.join, List.intercalate]
  | reference unknown =>
    rw [Instruction.decode_braced, whole, named.strip]
    simp [Instruction.path?, Verb.ofKeyword_of_unknown unknown, Instruction.body]

theorem Shows.braced {t : Text} (h : Shows name t) :
    ∃ inner, t = Text.braced inner ∧ Closed inner ∧ Accepted inner ∧
      markerOf (Text.braced inner) = none := by
  have unmarked := Instruction.markerOf_of_path (h.path named)
  have single {inner : Text} (plain : ∀ c ∈ inner, c ≠ '\\' ∧ c ≠ '{' ∧ c ≠ '}') :
      Closed inner ∧ Accepted inner := by
    obtain ⟨flat, whole⟩ := flat_of_plain plain
    exact ⟨closed_of_flat flat whole, accepted_flat flat whole⟩
  cases h with
  | var =>
    have plain : ∀ c ∈ "var".toList ++ ';' :: name, c ≠ '\\' ∧ c ≠ '{' ∧ c ≠ '}' := by
      rw [List.forall_mem_append, List.forall_mem_cons]
      exact ⟨Verb.keyword_plain (by decide), by decide, named.plain⟩
    exact ⟨_, rfl, (single plain).1, (single plain).2, unmarked⟩
  | reference => exact ⟨name, rfl, (single named.plain).1, (single named.plain).2, unmarked⟩

end Words

section Cutting

variable {mark : Char} {name value : Text} (marked : mark = ';' ∨ mark = '=')
  (named : name.IsIdentifier)
include marked named

theorem assigning_flat : Brace.ofText (assigning mark name) = [] ∧
    Text.dangling (assigning mark name) = false := by
  apply flat_of_plain
  unfold assigning
  rw [List.forall_mem_append, List.forall_mem_cons, List.forall_mem_append,
    List.forall_mem_singleton]
  refine ⟨Verb.keyword_plain (by decide), by decide, named.plain, ?_⟩
  rcases marked with rfl | rfl <;> decide

/-- What stands inside an assignment is closed and accepted where the value is. -/
theorem assignment_inside : Closed (assigning mark name ++ value) ∧
    Accepted (assigning mark name ++ value) ↔ Closed value ∧ Accepted value := by
  obtain ⟨flat, whole⟩ := assigning_flat marked named
  have front := closed_of_flat flat whole
  rw [accepted_append_flat flat whole]
  constructor
  · rintro ⟨closed, accepted⟩
    have balanced := front.balanced_of_append closed.balanced
    have ends : value.dangling = false := by
      rw [← Text.dangling_append whole]
      exact closed.whole
    exact ⟨balanced.closed ends, accepted⟩
  · rintro ⟨closed, accepted⟩
    exact ⟨front.append closed, accepted⟩

/-- Whichever mark stands between them, name and value are what an assignment reads. -/
theorem decode_assignment (closed : Closed value) (seamless : value.Seamless) :
    (Instruction.decode (assignment mark name value)).keyword = "set".toList ∧
      setParts (Instruction.decode (assignment mark name value)) = .ok (name, value) := by
  have whole := closed.cutParts_seamless seamless
  have split : assigning mark name ++ value = "set".toList ++ ';' :: (name ++ mark :: value) := by
    simp [assigning]
  rw [assignment, split, Instruction.decode_keyword (by decide), splitArguments]
  constructor
  · rfl
  · rcases marked with rfl | rfl
    · rw [cutParts_plain named.plain (named.foreign (by decide)), cutParts_semicolon, whole,
        List.append_nil]
      simp [setParts, Instruction.rest, Text.join, List.intercalate]
    · have plain : ∀ c ∈ name ++ ['='], c ≠ '\\' ∧ c ≠ '{' ∧ c ≠ '}' := by
        rw [List.forall_mem_append, List.forall_mem_singleton]
        exact ⟨named.plain, by decide⟩
      have uncut : ';' ∉ name ++ ['='] := by
        rw [List.mem_append, not_or]
        exact ⟨named.foreign (by decide), by decide⟩
      have sides : Text.cutAt '=' (name ++ '=' :: value) = some (name, value) :=
        Text.cutAt_append (named.foreign (by decide)) value
      have argument : cutParts 0 (name ++ '=' :: value) = (name ++ '=' :: value, []) := by
        rw [List.append_cons, cutParts_plain plain uncut, whole]
      rw [argument]
      simp only [setParts, sides]

end Cutting

namespace Resolve

variable {c : Context} {levels : Nat} {start next : Run} {mark : Char} {name value u w : Text}

theorem set_ok {inner : Text → Resolve Text} {i : Instruction} (named : name.IsIdentifier)
    (parts : setParts i = .ok (name, value))
    (given : (argument inner value).outcome start = (.ok w, next)) :
    (set inner i).outcome start = (.ok [], next.assign name (.text w)) := by
  have read : (nameArgument inner name).outcome start = (.ok name, start) := by
    rw [nameArgument, argument, if_neg (named.foreign (by decide)), pure_bind]
    dsimp only
    rw [named.strip, if_pos named.variable, outcome_pure]
  rw [set, parts]
  dsimp only
  rw [outcome_bind_ok read, outcome_bind_ok given]
  rfl

/-- What an assignment binds the name to, where the value resolves to a text. -/
def assigned (value u : Text) : Text :=
  if '{' ∈ value then u else value

/-- A value without an opening brace is taken as it stands, and only then an escape survives. -/
theorem assigned_eq_iff (closed : Closed value)
    (resolved : (text c levels value).outcome start = (.ok u, next)) :
    assigned value u = u ↔ '{' ∈ value ∨ '}' ∉ value := by
  unfold assigned
  by_cases opens : '{' ∈ value
  · rw [if_pos opens]
    exact iff_of_true rfl (.inl opens)
  · have flat := closed.flat opens
    rw [text_flat flat, outcome_pure] at resolved
    have braces : (∀ c ∈ bracePair, c ∉ value) ↔ '{' ∉ value ∧ '}' ∉ value := by simp [bracePair]
    rw [if_neg opens, ← Except.ok.inj (Prod.mk.inj resolved).1, eq_comm, unescape_eq_self flat,
      braces, and_iff_right opens, or_iff_right opens]

theorem argument_value (counted : Run) (closed : Closed value) (deep : '{' ∈ value → 0 < levels)
    (resolved : (text c (levels - 1) value).outcome start = (.ok u, next))
    (same : start.Equivalent counted) : ∃ last, next.Equivalent last ∧
      (argument (nested c levels) value).outcome counted = (.ok (assigned value u), last) := by
  unfold argument assigned
  by_cases opens : '{' ∈ value
  · obtain ⟨deeper, rfl⟩ := Nat.exists_eq_add_one_of_ne_zero (Nat.ne_of_gt (deep opens))
    obtain ⟨result, later⟩ := Equivalent.text c deeper value start counted same
    rw [Nat.add_sub_cancel] at resolved
    rw [resolved] at result later
    rw [if_pos opens, if_pos opens]
    exact ⟨_, later, Prod.ext result.symm rfl⟩
  · rw [text_flat (closed.flat opens), outcome_pure] at resolved
    cases resolved
    rw [if_neg opens, if_neg opens]
    exact ⟨counted, same, rfl⟩

/-- A variable is shown as it is. -/
theorem text_shows (levels : Nat) {t : Text} (shown : Shows name t) (named : name.IsIdentifier)
    (room : start.steps < c.maxSteps)
    (known : (start.scope c.snapshot).root? name = some (.text w)) :
    (text c levels t).outcome start =
      (.ok w, start.counted (maxNestedInstructions - levels) (Instruction.decode t)) := by
  obtain ⟨inner, rfl, closed, accepted, unmarked⟩ := shown.braced named
  apply text_single_ok closed accepted unmarked room
  apply perform_path (shown.path named)
  · rw [argument, if_neg (named.foreign (by decide)), outcome_pure]
  · exact (Scope.resolve_name named.variable _).trans (congrArg Except.ok known)

section Assign

variable (marked : mark = ';' ∨ mark = '=') (named : name.IsIdentifier) (closed : Closed value)
  (accepted : Accepted value) (seamless : value.Seamless)
include marked named closed accepted seamless

theorem assignment_single : Closed (assigning mark name ++ value) ∧
    Accepted (assigning mark name ++ value) ∧ markerOf (assignment mark name value) = none := by
  obtain ⟨closed_inside, accepted_inside⟩ :=
    (assignment_inside marked named).mpr ⟨closed, accepted⟩
  refine ⟨closed_inside, accepted_inside, ?_⟩
  rw [markerOf, (decode_assignment marked named closed seamless).1]
  rfl

/-- An assignment gives nothing, and binds the name after all that the value does. -/
theorem text_assignment (room : start.steps < c.maxSteps) (deep : '{' ∈ value → 0 < levels)
    (resolved : (text c (levels - 1) value).outcome { start with steps := start.steps + 1 } =
      (.ok u, next)) :
    ∃ before, next.Equivalent before ∧ (text c levels (assignment mark name value)).outcome start =
      (.ok [], before.assign name (.text (assigned value u))) := by
  obtain ⟨closed_inside, accepted_inside, unmarked⟩ :=
    assignment_single marked named closed accepted seamless
  obtain ⟨keyword, parts⟩ := decode_assignment marked named closed seamless
  obtain ⟨before, same, given⟩ := argument_value (start.counted (maxNestedInstructions - levels)
    (Instruction.decode (assignment mark name value))) closed deep resolved ⟨rfl, rfl⟩
  refine ⟨before, same, text_single_ok closed_inside accepted_inside unmarked room ?_⟩
  rw [← assignment, keyword]
  exact set_ok named parts given

/-- What was assigned is shown as it is by the instruction behind the assignment. -/
theorem text_assignment_shows {t : Text} (shown : Shows name t) (free : name ∉ Scope.rootNames)
    (bound : (text c levels (assignment mark name value)).outcome start =
      (.ok [], next.assign name (.text w))) (room : next.steps < c.maxSteps) :
    ∃ final, (text c levels (assignment mark name value ++ t)).outcome start = (.ok w, final) ∧
      final.effects = next.effects.assign name (.text w) ∧ final.steps = next.steps + 1 := by
  obtain ⟨closed_inside, accepted_inside, unmarked⟩ :=
    assignment_single marked named closed accepted seamless
  obtain ⟨inner, rfl, closed_shown, accepted_shown, unmarked_shown⟩ := shown.braced named
  have known := next.root?_assign_self c.snapshot name (.text w) free
  have more : (next.assign name (.text w)).steps < c.maxSteps := room
  have read := text_shows levels shown named more known
  have both := text_append_ok (accepted_single closed_inside accepted_inside unmarked)
    (accepted_single closed_shown accepted_shown unmarked_shown) closed_inside.span.whole bound read
  exact ⟨_, both, rfl, rfl⟩

end Assign

/-- Both ways to set a variable leave the same and bind the same text, which is then shown as it is.
It is what the value resolves to, but where the value has a closing brace and no opening one. -/
theorem set_then_shown {c : Context} {levels : Nat} {start next : Run} {name value u : Text}
    (named : name.IsIdentifier) (free : name ∉ Scope.rootNames) (seamless : value.Seamless)
    (formed : Single (assignment ';' name value)) (room : start.steps < c.maxSteps)
    (deep : '{' ∈ value → 0 < levels)
    (resolved : (text c (levels - 1) value).outcome { start with steps := start.steps + 1 } =
      (.ok u, next)) :
    (assigned value u = u ↔ '{' ∈ value ∨ '}' ∉ value) ∧
    ∀ mark ∈ [';', '='], ∃ last,
      (text c levels (assignment mark name value)).outcome start = (.ok [], last) ∧
      last.effects = next.effects.assign name (.text (assigned value u)) ∧
      last.steps = next.steps ∧
      ∀ t, Shows name t → next.steps < c.maxSteps → ∃ final,
        (text c levels (assignment mark name value ++ t)).outcome start =
          (.ok (assigned value u), final) ∧
        final.effects = last.effects ∧ final.steps = next.steps + 1 := by
  obtain ⟨closed, accepted⟩ := (assignment_inside (.inl rfl) named).mp formed.inside
  constructor
  · exact assigned_eq_iff closed resolved
  · intro mark member
    have marked : mark = ';' ∨ mark = '=' := by simpa using member
    obtain ⟨before, same, bound⟩ :=
      text_assignment marked named closed accepted seamless room deep resolved
    have effects : before.effects = next.effects := same.effects.symm
    have steps : before.steps = next.steps := same.steps.symm
    refine ⟨_, bound, congrArg (Effects.assign · name _) effects, steps, ?_⟩
    intro t shown more
    obtain ⟨final, both, final_effects, final_steps⟩ :=
      text_assignment_shows marked named closed accepted seamless shown free bound (steps ▸ more)
    exact ⟨final, both, final_effects, steps ▸ final_steps⟩

/-- A text with a brace and a backslash, bound by a reference and shown by another. -/
theorem set_then_shown_braces :
    let start : Run := .start ⟨[("b".toList, .text "\x7d\\\x7b;".toList)], [], [], [], [], none⟩
    ∃ final, (text .bare 50 "\x7bset;a=\x7bb\x7d\x7d\x7ba\x7d".toList).outcome start =
        (.ok "\x7d\\\x7b;".toList, final) ∧ final.steps = 3 := by
  intro start
  have named : Text.IsIdentifier "a".toList := Text.isIdentifier_of_variable rfl
  let counted : Run := { start with steps := start.steps + 1 }
  have refers : Scope.Refers (counted.scope Context.bare.snapshot) "\x7d\\\x7b;".toList
      "b".toList :=
    .name rfl rfl rfl
  have formed : Single (assignment ';' "a".toList "\x7bb\x7d".toList) := ⟨⟨_, _, rfl⟩, _, rfl⟩
  have leads : Leads .bare 49 counted "\x7bb\x7d".toList "\x7d\\\x7b;".toList
      (counted.counted 1 (Instruction.decode "\x7bb\x7d".toList)) :=
    refers.leads (by decide)
  obtain ⟨same, assigned⟩ := @set_then_shown .bare 50 start _ _ _ _ named (by decide)
    (.of_absent (by decide)) formed (by decide) (by decide) leads.text
  obtain ⟨last, bound, effects, steps, shown⟩ := assigned '=' (by decide)
  obtain ⟨final, result, -, more⟩ := shown _ (.reference (by decide)) (by decide)
  exact ⟨final, result, more⟩

/-- An escape in a value without an opening brace survives, so that more is bound than the value
resolves to. -/
theorem set_keeps_escape :
    ¬ ∀ (c : Context) (levels : Nat) (start next : Run) (name value u : Text),
      name.IsIdentifier → name ∉ Scope.rootNames → value.Seamless →
      (∀ mark ∈ [';', '='], Single (assignment mark name value)) →
      start.steps < c.maxSteps → ('{' ∈ value → 0 < levels) →
      (text c (levels - 1) value).outcome { start with steps := start.steps + 1 } = (.ok u, next) →
      next.steps < c.maxSteps → ∀ mark ∈ [';', '='], ∀ t, Shows name t →
        ((text c levels (assignment mark name value ++ t)).outcome start).1 = .ok u := by
  intro claim
  let start : Run := .start ⟨[], [], [], [], [], none⟩
  have named : Text.IsIdentifier "n".toList := Text.isIdentifier_of_variable rfl
  have closed : Closed "a\\\x7db".toList := closed_of_flat rfl rfl
  have seamless : Text.Seamless "a\\\x7db".toList := .of_absent (by decide)
  have accepted : Accepted "a\\\x7db".toList := accepted_flat rfl rfl
  let counted : Run := { start with steps := start.steps + 1 }
  have resolved : (text .bare 49 "a\\\x7db".toList).outcome counted =
      (.ok "a\x7db".toList, counted) := by
    rw [text_flat rfl]
    rfl
  have formed : ∀ mark ∈ [';', '='], Single (assignment mark "n".toList "a\\\x7db".toList) := by
    simp only [List.forall_mem_cons]
    exact ⟨⟨⟨_, _, rfl⟩, _, rfl⟩, ⟨⟨_, _, rfl⟩, _, rfl⟩, List.forall_mem_nil _⟩
  have claimed := claim .bare 50 start _ _ _ _ named (by decide) seamless formed (by decide)
    (by decide) resolved (by decide) ';' (by decide) _ .var
  obtain ⟨before, same, bound⟩ := @text_assignment .bare 50 start _ ';' _ _ _ (.inl rfl) named
    closed accepted seamless (by decide) (by decide) resolved
  have room : before.steps < Context.bare.maxSteps := by
    rw [← same.steps]
    decide
  obtain ⟨final, result, -⟩ := text_assignment_shows (.inl rfl) named closed accepted seamless .var
    (by decide) bound room
  rw [result] at claimed
  cases claimed

end Resolve

end ChatCommands
