import ChatCommands.Proofs.Expr.Acceptance
import ChatCommands.Proofs.Expr.Scanning

/-!
An expression does not depend on where its tokens stand.

The same tokens at other positions derive the same expression, with as many levels more as one
likes, when the text between any two of them stays the same: it is the text that a path keeps.
-/

namespace ChatCommands

/-- Some tokens end where one of them does, and still do when they are moved. -/
theorem Token.exists_lastStop (p q : Nat) (x : Token) (ts : List Token) :
    ∃ y ∈ x :: ts, lastStop x.stop ts = y.stop ∧
      lastStop (x.moved p q).stop (ts.map (moved p q)) = (y.moved p q).stop := by
  rcases List.eq_nil_or_concat ts with rfl | ⟨us, y, rfl⟩
  · exact ⟨x, List.mem_cons_self, rfl, rfl⟩
  · exact ⟨y, by simp, by simp [lastStop], by simp [lastStop]⟩

namespace Grammar

open Token (lastStop)

variable {source source' : Nat → Nat → Text} {p q k n : Nat} {ts us : List Token}

/-- Whether the text between any two tokens stays the same when they are moved. -/
def Agrees (source source' : Nat → Nat → Text) (p q : Nat) (ts : List Token) : Prop :=
  ∀ x ∈ ts, ∀ y ∈ ts, source' (x.moved p q).position (y.moved p q).stop = source x.position y.stop

theorem Agrees.mono (h : Agrees source source' p q ts) (subset : us ⊆ ts) :
    Agrees source source' p q us :=
  fun x first y last => h x (subset first) y (subset last)

theorem Agrees.left (h : Agrees source source' p q (ts ++ us)) : Agrees source source' p q ts :=
  h.mono (List.subset_append_left ts us)

theorem Agrees.right (h : Agrees source source' p q (ts ++ us)) : Agrees source source' p q us :=
  h.mono (List.subset_append_right ts us)

theorem Agrees.tail {x : Token} (h : Agrees source source' p q (x :: ts)) :
    Agrees source source' p q ts :=
  h.mono (List.subset_cons_self x ts)

/-- The text from a token to the last of those behind it is moved with them. -/
theorem Agrees.text {x : Token} (h : Agrees source source' p q (x :: ts)) :
    source' (x.moved p q).position (lastStop (x.moved p q).stop (ts.map (Token.moved p q))) =
      source x.position (lastStop x.stop ts) := by
  obtain ⟨y, member, stops, moved⟩ := Token.exists_lastStop p q x ts
  rw [stops, moved]
  exact h x List.mem_cons_self y member

mutual

theorem Disjunction.moved {n : Nat} {ts : List Token} {e : Expr} : Disjunction source n ts e →
    Agrees source source' p q ts → Disjunction source' (k + n) (ts.map (Token.moved p q)) e
  | .single only, same => .single (only.moved same)
  | .several first or others, same => by
    rw [List.map_append, List.map_cons]
    exact .several (first.moved same.left) or (others.moved same.right.tail)

theorem Disjuncts.moved {n : Nat} {ts : List Token} {es : List Expr} : Disjuncts source n ts es →
    Agrees source source' p q ts → Disjuncts source' (k + n) (ts.map (Token.moved p q)) es
  | .last only, same => .last (only.moved same)
  | .more first or others, same => by
    rw [List.map_append, List.map_cons]
    exact .more (first.moved same.left) or (others.moved same.right.tail)

theorem Conjunction.moved {n : Nat} {ts : List Token} {e : Expr} : Conjunction source n ts e →
    Agrees source source' p q ts → Conjunction source' (k + n) (ts.map (Token.moved p q)) e
  | .single only, same => .single (only.moved same)
  | .several first and others, same => by
    rw [List.map_append, List.map_cons]
    exact .several (first.moved same.left) and (others.moved same.right.tail)

theorem Conjuncts.moved {n : Nat} {ts : List Token} {es : List Expr} : Conjuncts source n ts es →
    Agrees source source' p q ts → Conjuncts source' (k + n) (ts.map (Token.moved p q)) es
  | .last only, same => .last (only.moved same)
  | .more first and others, same => by
    rw [List.map_append, List.map_cons]
    exact .more (first.moved same.left) and (others.moved same.right.tail)

theorem Unary.moved {n : Nat} {ts : List Token} {e : Expr} : Unary source n ts e →
    Agrees source source' p q ts → Unary source' (k + n) (ts.map (Token.moved p q)) e
  | .negation not operand, same => .negation not (operand.moved same.tail)
  | .comparison plain operand, same => .comparison plain (operand.moved same)

theorem Comparison.moved {n : Nat} {ts : List Token} {e : Expr} : Comparison source n ts e →
    Agrees source source' p q ts → Comparison source' (k + n) (ts.map (Token.moved p q)) e
  | .primary only, same => .primary (only.moved same)
  | .relation first op symbol second, same => by
    rw [List.map_append, List.map_cons]
    exact .relation (first.moved same.left) op symbol (second.moved same.right.tail)

theorem Primary.moved {n : Nat} {ts : List Token} {e : Expr} : Primary source n ts e →
    Agrees source source' p q ts → Primary source' (k + n) (ts.map (Token.moved p q)) e
  | .number kind value, _ => .number kind value
  | .negative op mark kind value, _ => .negative op mark kind value
  | .string kind, _ => .string kind
  | .word kind value, _ => .word kind value
  | .group op left inside right, same => by
    rw [List.map_cons, List.map_append]
    exact .group op left (inside.moved same.tail.left) right
  | .path kind free steps, same => by
    rw [← same.text]
    exact .path kind free (steps.moved same.tail)

theorem Steps.moved {n : Nat} {ts : List Token} {ss : List Step} : Steps source n ts ss →
    Agrees source source' p q ts → Steps source' (k + n) (ts.map (Token.moved p q)) ss
  | .none, _ => .none
  | .field mark kind others, same => .field mark kind (others.moved same.tail.tail)
  | .call mark kind left inside right others, same => by
    simp only [List.map_cons, List.map_append]
    exact .call mark kind left (inside.moved same.tail.tail.tail.left) right
      (others.moved same.tail.tail.tail.right.tail)
  | .index mark kind whole value others, same =>
    .index mark kind whole value (others.moved same.tail.tail)
  | .join mark kind whole value sign others, same =>
    .join mark kind whole value sign (others.moved same.tail.tail.tail)
  | .indices mark kind pieces first second others, same =>
    .indices mark kind pieces first second (others.moved same.tail.tail)
  | .key left key right others, same => by
    rw [List.map_cons, List.map_append, List.map_cons]
    exact .key left (key.moved same.tail.left) right (others.moved same.tail.right.tail)

theorem Arguments.moved {n : Nat} {ts : List Token} {es : List Expr} : Arguments source n ts es →
    Agrees source source' p q ts → Arguments source' (k + n) (ts.map (Token.moved p q)) es
  | .none, _ => .none
  | .some list, same => .some (list.moved same)

theorem ArgumentList.moved {n : Nat} {ts : List Token} {es : List Expr} :
    ArgumentList source n ts es → Agrees source source' p q ts →
      ArgumentList source' (k + n) (ts.map (Token.moved p q)) es
  | .last only, same => .last (only.moved same)
  | .more first mark others, same => by
    rw [List.map_append, List.map_cons]
    exact .more (first.moved same.left) mark (others.moved same.right.tail)

end

end Grammar

/-! ### Reading with a number of levels -/

open Token (Scans)
open Grammar (Disjunction)

/-- Reads an expression of which at most `levels` disjunctions and negations are open at once. -/
def Expr.parseWithin (levels : Nat) (t : Text) : Except Halt Expr := do
  let tokens ← (Token.scan t).mapError .eval
  Parse.finish (← Parse.disjunction (Text.slice t) levels tokens)

theorem Expr.parse_eq_parseWithin (t : Text) :
    Expr.parse t = Expr.parseWithin Parse.maxNesting t := rfl

section Reading

variable {t : Text} {ts : List Token} {e : Expr} {n : Nat}

theorem Expr.derives_of_parseWithin (read : Expr.parseWithin n t = .ok e) :
    ∃ ts, Scans 0 t ts ∧ Disjunction (Text.slice t) n ts e := by
  obtain ⟨tokens, scanned, read⟩ := bind_eq_ok.mp read
  obtain ⟨⟨e, rest⟩, taken, finished⟩ := bind_eq_ok.mp read
  cases scan : Token.scan t with
  | error e =>
    rw [scan] at scanned
    cases scanned
  | ok found =>
    rw [scan] at scanned
    cases scanned
    obtain ⟨ts, rfl, derived⟩ :=
      Parse.derives_disjunction (Text.slice t) n (Token.shaped_scanAt scan) taken
    cases rest with
    | nil =>
      cases finished
      exact ⟨ts, by simpa using Token.scans_of_scanAt scan, derived⟩
    | cons x rest => cases finished

theorem Expr.parseWithin_of_derives (scans : Scans 0 t ts)
    (derived : Disjunction (Text.slice t) n ts e) : Expr.parseWithin n t = .ok e := by
  have scanned : Token.scan t = .ok ts := scans.scanAt_eq
  have read := Parse.reads_disjunction derived (Token.named_scanAt scanned) .nil
  rw [List.append_nil] at read
  rw [Expr.parseWithin, scanned]
  exact bind_eq_ok.mpr ⟨ts, rfl, bind_eq_ok.mpr ⟨_, read, rfl⟩⟩

/-- Levels that are left over do no harm. -/
theorem Expr.parseWithin_add (read : Expr.parseWithin n t = .ok e) (k : Nat) :
    Expr.parseWithin (k + n) t = .ok e := by
  obtain ⟨ts, scans, derived⟩ := Expr.derives_of_parseWithin read
  have same : ts.map (Token.moved 0 0) = ts := List.map_id ts
  have agrees : Grammar.Agrees (Text.slice t) (Text.slice t) 0 0 ts := fun _ _ _ _ => rfl
  have derived := derived.moved (k := k) agrees
  rw [same] at derived
  exact Expr.parseWithin_of_derives scans derived

end Reading

end ChatCommands
