import ChatCommands.Proofs.Expr.Names
import ChatCommands.Proofs.Expr.Relocation

/-!
Every path in an expression is the path that its text writes.

The tokens of a path stand in a row among those of the expression, and its text goes from the
first to the last of them. Cut out, that text has the same tokens and no white space at its ends,
so that it reads as the same path.
-/

namespace ChatCommands

/-! ### The paths of an expression -/

mutual

/-- The paths of an expression, with those in their keys and arguments. -/
def Expr.paths : Expr → List Path
  | .literal _ => []
  | .path root steps source => ⟨root, steps, source⟩ :: Step.listPaths steps
  | .not e => e.paths
  | .all es => Expr.listPaths es
  | .any es => Expr.listPaths es
  | .compare _ left right => left.paths ++ right.paths

def Expr.listPaths : List Expr → List Path
  | [] => []
  | e :: rest => e.paths ++ Expr.listPaths rest

def Step.paths : Step → List Path
  | .field _ => []
  | .index key => key.paths
  | .joinFrom _ => []
  | .call _ args => Expr.listPaths args

def Step.listPaths : List Step → List Path
  | [] => []
  | step :: rest => step.paths ++ Step.listPaths rest

end

namespace Grammar

open Token (lastStop)

variable {source : Nat → Nat → Text} {n m : Nat} {ts us vs : List Token} {p : Path}

/-- Whether some of the tokens, in a row, are those of a path whose text goes from the first to the
last of them. -/
def Spelled (source : Nat → Nat → Text) (n : Nat) (ts : List Token) (p : Path) : Prop :=
  ∃ root us k, root :: us <:+: ts ∧ k ≤ n ∧ root.kind = .name ∧ p.root = root.text ∧
    Steps source k us p.steps ∧ p.source = source root.position (lastStop root.stop us)

namespace Spelled

theorem mono (h : Spelled source n ts p) (levels : n ≤ m) (infix_of : ts <:+: us) :
    Spelled source m us p := by
  obtain ⟨root, vs, k, inside, low, spelled⟩ := h
  exact ⟨root, vs, k, inside.trans infix_of, low.trans levels, spelled⟩

theorem left (h : Spelled source n ts p) (us : List Token) : Spelled source n (ts ++ us) p :=
  h.mono le_rfl (List.prefix_append ts us).isInfix

theorem right (h : Spelled source n us p) (ts : List Token) : Spelled source n (ts ++ us) p :=
  h.mono le_rfl (List.suffix_append ts us).isInfix

theorem cons (h : Spelled source n ts p) (x : Token) : Spelled source n (x :: ts) p :=
  h.right [x]

theorem succ (h : Spelled source n ts p) : Spelled source (n + 1) ts p :=
  h.mono (Nat.le_succ n) (List.infix_refl ts)

end Spelled

/-! By induction on the derivation: what a phrase contains stays in a row in the tokens around it,
and no phrase has more levels than the one it stands in. -/

mutual

theorem Disjunction.spelled {n : Nat} {ts : List Token} {e : Expr} : Disjunction source n ts e →
    ∀ p ∈ e.paths, Spelled source n ts p
  | .single only, p, member => (only.spelled p member).succ
  | .several first or others, p, member => by
    rcases List.mem_append.mp member with member | member
    · exact ((first.spelled p member).left _).succ
    · exact (((others.spelled p member).cons _).right _).succ

theorem Disjuncts.spelled {n : Nat} {ts : List Token} {es : List Expr} : Disjuncts source n ts es →
    ∀ p ∈ Expr.listPaths es, Spelled source n ts p
  | .last only, p, member => only.spelled p (by simpa [Expr.listPaths] using member)
  | .more first or others, p, member => by
    rcases List.mem_append.mp member with member | member
    · exact (first.spelled p member).left _
    · exact ((others.spelled p member).cons _).right _

theorem Conjunction.spelled {n : Nat} {ts : List Token} {e : Expr} : Conjunction source n ts e →
    ∀ p ∈ e.paths, Spelled source n ts p
  | .single only, p, member => only.spelled p member
  | .several first and others, p, member => by
    rcases List.mem_append.mp member with member | member
    · exact (first.spelled p member).left _
    · exact ((others.spelled p member).cons _).right _

theorem Conjuncts.spelled {n : Nat} {ts : List Token} {es : List Expr} : Conjuncts source n ts es →
    ∀ p ∈ Expr.listPaths es, Spelled source n ts p
  | .last only, p, member => only.spelled p (by simpa [Expr.listPaths] using member)
  | .more first and others, p, member => by
    rcases List.mem_append.mp member with member | member
    · exact (first.spelled p member).left _
    · exact ((others.spelled p member).cons _).right _

theorem Unary.spelled {n : Nat} {ts : List Token} {e : Expr} : Unary source n ts e →
    ∀ p ∈ e.paths, Spelled source n ts p
  | .negation _ operand, p, member => ((operand.spelled p member).cons _).succ
  | .comparison _ operand, p, member => operand.spelled p member

theorem Comparison.spelled {n : Nat} {ts : List Token} {e : Expr} : Comparison source n ts e →
    ∀ p ∈ e.paths, Spelled source n ts p
  | .primary only, p, member => only.spelled p member
  | .relation first op symbol second, p, member => by
    rcases List.mem_append.mp member with member | member
    · exact (first.spelled p member).left _
    · exact ((second.spelled p member).cons _).right _

theorem Primary.spelled {n : Nat} {ts : List Token} {e : Expr} : Primary source n ts e →
    ∀ p ∈ e.paths, Spelled source n ts p
  | .group op left inside right, p, member => ((inside.spelled p member).left _).cons _
  | .path kind free steps, p, member => by
    rcases List.mem_cons.mp member with rfl | member
    · exact ⟨_, _, _, List.infix_refl _, le_rfl, kind, rfl, steps, rfl⟩
    · exact (steps.spelled p member).cons _

theorem Steps.spelled {n : Nat} {ts : List Token} {ss : List Step} : Steps source n ts ss →
    ∀ p ∈ Step.listPaths ss, Spelled source n ts p
  | .field mark kind others, p, member => ((others.spelled p member).cons _).cons _
  | .call mark kind left inside right others, p, member => by
    rcases List.mem_append.mp member with member | member
    · exact ((((inside.spelled p member).left _).cons _).cons _).cons _
    · exact (((((others.spelled p member).cons _).right _).cons _).cons _).cons _
  | .index mark kind whole value others, p, member => ((others.spelled p member).cons _).cons _
  | .join mark kind whole value sign others, p, member =>
    (((others.spelled p member).cons _).cons _).cons _
  | .indices mark kind pieces first second others, p, member =>
    ((others.spelled p member).cons _).cons _
  | .key left key right others, p, member => by
    rcases List.mem_append.mp member with member | member
    · exact ((key.spelled p member).left _).cons _
    · exact (((others.spelled p member).cons _).right _).cons _

theorem Arguments.spelled {n : Nat} {ts : List Token} {es : List Expr} : Arguments source n ts es →
    ∀ p ∈ Expr.listPaths es, Spelled source n ts p
  | .some list, p, member => list.spelled p member

theorem ArgumentList.spelled {n : Nat} {ts : List Token} {es : List Expr} :
    ArgumentList source n ts es → ∀ p ∈ Expr.listPaths es, Spelled source n ts p
  | .last only, p, member => only.spelled p (by simpa [Expr.listPaths] using member)
  | .more first mark others, p, member => by
    rcases List.mem_append.mp member with member | member
    · exact (first.spelled p member).left _
    · exact ((others.spelled p member).cons _).right _

end

end Grammar

/-! ### The text of tokens in a row -/

namespace Token

variable {c : Char} {rest t : Text} {k : TokenKind} {n p : Nat} {x : Token} {ts : List Token}

theorem visible_of_lexeme (found : lexeme c rest = some (some k, n)) : Text.isBlank c = false := by
  cases lexeme_iff.mp found <;> simp_all

/-- No lexeme ends with white space, not even a string, which ends with its mark. -/
theorem lexeme_last (found : lexeme c rest = some (some k, n)) :
    ∀ d ∈ (c :: rest.take n).getLast?, Text.isBlank d = false := by
  intro d last
  cases lexeme_iff.mp found with
  | number visible digit =>
    rcases take_numberLength digit with digits | ⟨whole, fraction, _, digits, same⟩
    · exact Text.isBlank_of_isDigit (digits.2 d (List.mem_of_getLast? last))
    · rw [same, List.append_cons, List.getLast?_append_of_ne_nil _ digits.1] at last
      exact Text.isBlank_of_isDigit (digits.2 d (List.mem_of_getLast? last))
  | string visible other quoted closes =>
    obtain ⟨body, more, rfl, rfl, _⟩ := stringLength_eq_some closes
    have taken : (body ++ c :: more).take (body.length + 1) = body ++ [c] := by
      rw [List.take_length_add_append]
      rfl
    rw [taken, ← List.cons_append, List.getLast?_concat] at last
    cases last
    exact visible_of_lexeme found
  | name visible other unquoted start =>
    rw [take_length_takeWhile] at last
    have letters : ∀ d ∈ c :: rest.takeWhile isNameChar, isNameChar d = true :=
      List.forall_mem_cons.mpr
        ⟨isNameChar_of_isNameStart start, List.all_eq_true.mp List.all_takeWhile⟩
    exact isNameChar_visible (letters d (List.mem_of_getLast? last))
  | @op o visible other unquoted symbol first =>
    have operator : o ∈ operators := List.mem_of_find?_eq_some first
    have characters : operators.all (fun o => o.all fun d => !Text.isBlank d) = true := by rfl
    simp only [List.all_eq_true, Bool.not_eq_true'] at characters
    have fits : o.isPrefixOf (c :: rest) = true :=
      List.find?_some (p := fun o => List.isPrefixOf o (c :: rest)) first
    have same := List.prefix_iff_eq_take.mp (List.isPrefixOf_iff_prefix.mp fits)
    cases o with
    | nil => exact absurd operator (by decide)
    | cons a o =>
      rw [List.length_cons, List.take_succ_cons] at same
      rw [List.length_cons, Nat.add_sub_cancel, ← same] at last
      exact characters _ operator d (List.mem_of_getLast? last)

theorem Scans.nil_eq (h : Scans p [] ts) : ts = [] := by
  cases h
  rfl

theorem Scans.head_visible (h : Scans p t (x :: ts)) (first : x.position = p) :
    ∀ d ∈ t.head?, Text.isBlank d = false := by
  cases h with
  | blank found later =>
    have := (later.inside x List.mem_cons_self).1
    omega
  | token found later =>
    rintro d ⟨⟩
    exact visible_of_lexeme found

theorem lastStop_of_ne_nil (nonempty : ts ≠ []) (p q : Nat) : lastStop p ts = lastStop q ts := by
  cases ts with
  | nil => exact absurd rfl nonempty
  | cons x ts => rw [lastStop_cons, lastStop_cons]

/-- The last character of a text is that of what is left behind its first lexeme. -/
theorem getLast?_behind (later : Scans p (rest.drop n) ts) (nonempty : ts ≠ []) :
    (c :: rest).getLast? = (rest.drop n).getLast? := by
  have left : rest.drop n ≠ [] := fun empty => by
    rw [empty] at later
    exact nonempty later.nil_eq
  have split : c :: rest = (c :: rest.take n) ++ rest.drop n := by simp
  rw [split, List.getLast?_append_of_ne_nil _ left]

theorem Scans.last_visible (h : Scans p t ts) (nonempty : ts ≠ [])
    (ends : lastStop p ts = p + t.length) : ∀ d ∈ t.getLast?, Text.isBlank d = false := by
  induction h with
  | done => exact absurd rfl nonempty
  | @blank p c rest n ts found later ih =>
    rw [← lexeme_ends (lexeme_le found), lastStop_of_ne_nil nonempty p (p + (n + 1))] at ends
    rw [getLast?_behind later nonempty]
    exact ih nonempty ends
  | @token p c rest k n ts found later ih =>
    rw [← lexeme_ends (lexeme_le found), lastStop_cons] at ends
    by_cases last : ts = []
    · subst last
      have whole : rest.length ≤ n := by
        simp only [lastStop, stop, List.length_cons, List.length_take, List.length_drop,
          List.getLast?_nil, Option.map_none, Option.getD_none] at ends
        omega
      have := lexeme_last found
      rwa [List.take_of_length_le whole] at this
    · rw [lastStop_of_ne_nil last _ (p + (n + 1))] at ends
      rw [getLast?_behind later last]
      exact ih last ends

end Token

/-! ### A path on its own -/

namespace Path

open Token (Scans lastStop)

variable {t : Text} {root : Token} {us : List Token} {ss : List Step}

/-- A text whose tokens reach from its start to its end is not trimmed before it is read. -/
theorem parse_scanned (scans : Scans 0 t (root :: us)) (first : root.position = 0)
    (ends : lastStop root.stop us = t.length) : Path.parse t =
      (Parse.path (Text.slice t) (Parse.disjunction (Text.slice t) 64) (root :: us)).bind
        Parse.finish := by
  have trimmed : Text.strip t = t :=
    Text.strip_of_ends (scans.head_visible first) (scans.last_visible (by simp) (by
      rw [Token.lastStop_cons, ends, Nat.zero_add]))
  have scanned : Token.scan t = .ok (root :: us) := scans.scanAt_eq
  rw [Path.parse, trimmed, scanned]
  rfl

theorem parse_of_steps (scans : Scans 0 t (root :: us)) (first : root.position = 0)
    (ends : lastStop root.stop us = t.length) (kind : root.kind = .name)
    (steps : Grammar.Steps (Text.slice t) 64 us ss) : Path.parse t = .ok ⟨root.text, ss, t⟩ := by
  have named := Token.named_scanAt scans.scanAt_eq
  have read := Parse.reads_steps steps (List.forall_mem_cons.mp named).2 .nil (us.length + 1)
    root.stop (Nat.lt_succ_self _)
  have whole : Text.slice t 0 t.length = t := by simp [Text.slice]
  rw [List.append_nil] at read
  rw [parse_scanned scans first ends, Parse.path, if_pos kind, read]
  change Except.ok (Path.mk root.text ss (Text.slice t root.position _)) = _
  rw [first, ends, whole]

end Path

theorem Text.slice_slice {t : Text} {a b i j : Nat} (inside : a + j ≤ b) :
    slice (slice t a b) i j = slice t (a + i) (a + j) := by
  rw [slice, slice, slice, List.take_drop, List.take_take, Nat.min_eq_left inside, List.drop_drop]

section Cut

open Token (Scans lastStop moved)

variable {t s : Text} {x y : Token} {ts : List Token} (cut : Scans x.position s (x :: ts))
include cut

theorem Token.stop_moved (member : y ∈ x :: ts) :
    x.position + (y.moved x.position 0).stop = y.stop := by
  have := (cut.inside y member).1
  simp only [stop, moved]
  omega

variable (text : s = Text.slice t x.position (lastStop x.stop ts))
include text

theorem Token.length_cut : x.position + s.length = lastStop x.stop ts := by
  obtain ⟨y, member, stops, _⟩ := exists_lastStop x.position 0 x ts
  have inside := cut.inside y member
  have := stop_moved cut member
  have short : s.length ≤ y.stop - x.position := by
    rw [text, stops, Text.slice, List.length_drop, List.length_take]
    omega
  omega

theorem Token.ends_cut :
    lastStop (x.moved x.position 0).stop (ts.map (moved x.position 0)) = s.length := by
  obtain ⟨y, member, stops, behind⟩ := exists_lastStop x.position 0 x ts
  have := stop_moved cut member
  have := length_cut cut text
  omega

theorem Grammar.agrees_cut : Agrees (Text.slice t) (Text.slice s) x.position 0 (x :: ts) := by
  intro y first z last
  have starts : x.position + (y.moved x.position 0).position = y.position :=
    Nat.add_sub_cancel' (cut.inside y first).1
  have inside : x.position + (z.moved x.position 0).stop ≤ lastStop x.stop ts := by
    rw [Token.stop_moved cut last, ← Token.length_cut cut text]
    exact (cut.inside z last).2
  rw [text, Text.slice_slice inside, starts, Token.stop_moved cut last]

end Cut

/-- What is cut out of a text from a root to the end of its steps reads as it did there. -/
theorem Path.parse_spelled {t : Text} {tokens : List Token} {p : Path}
    (scans : Token.Scans 0 t tokens) (spelled : Grammar.Spelled (Text.slice t) 64 tokens p) :
    Path.parse p.source = .ok p := by
  obtain ⟨root, us, k, ⟨before, after, rfl⟩, low, kind, name, steps, text⟩ := spelled
  have cut := scans.slice
  rw [← text] at cut
  have moved := steps.moved (k := 64 - k) (Grammar.agrees_cut cut text).tail
  rw [Nat.sub_add_cancel low] at moved
  have read := parse_of_steps (cut.moved 0) (Nat.sub_self root.position)
    (Token.ends_cut cut text) kind moved
  rw [read]
  cases p
  cases name
  rfl

/-- Every path in an expression, in keys and arguments as well, is what its own text reads as. -/
theorem Expr.parse_sources {t : Text} {e : Expr} (read : Expr.parse t = .ok e) :
    ∀ p ∈ e.paths, Path.parse p.source = .ok p := by
  rw [Expr.parse_eq_parseWithin] at read
  obtain ⟨ts, scans, derived⟩ := Expr.derives_of_parseWithin read
  exact fun p member => Path.parse_spelled scans (derived.spelled p member)

theorem Expr.parse_sources_nested :
    let inner : Path := ⟨"c".toList, [Grammar.indexAt 0], "c . 0".toList⟩
    let call : Path := ⟨"b".toList, [.call "join".toList [inner.expr]], "b.join( c . 0 )".toList⟩
    let outer : Path := ⟨"a".toList, [.index call.expr], "a[ b.join( c . 0 ) ]".toList⟩
    Expr.parse "not  a[ b.join( c . 0 ) ] ".toList = .ok (.not outer.expr) ∧
      Path.parse "a[ b.join( c . 0 ) ]".toList = .ok outer ∧
      Path.parse "b.join( c . 0 )".toList = .ok call ∧ Path.parse "c . 0".toList = .ok inner := by
  intro inner call outer
  have read : Expr.parse "not  a[ b.join( c . 0 ) ] ".toList = .ok (.not outer.expr) := by cbv
  have sources := Expr.parse_sources read
  exact ⟨read, sources outer (by simp [Expr.paths, Path.expr, outer]),
    sources call (by simp [Expr.paths, Step.paths, Step.listPaths, Path.expr, outer, call]),
    sources inner (by
      simp [Expr.paths, Expr.listPaths, Step.paths, Step.listPaths, Path.expr, outer, call])⟩

end ChatCommands
