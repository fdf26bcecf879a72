import ChatCommands.Proofs.Expr.Tiling

/-!
An expression does not depend on the white space between its tokens.

The same tokens at any other places derive the same expression, but for the texts that its paths
keep. So a text reads as what its tokens with single spaces between them read as.
-/

namespace ChatCommands

/-! ### Expressions without their sources -/

mutual

/-- The expression with no text kept by its paths, nor by those in their keys and arguments. -/
def Expr.unsourced : Expr → Expr
  | .literal v => .literal v
  | .path root steps _ => .path root (Step.listUnsourced steps) []
  | .not e => .not e.unsourced
  | .all es => .all (Expr.listUnsourced es)
  | .any es => .any (Expr.listUnsourced es)
  | .compare relation left right => .compare relation left.unsourced right.unsourced

def Expr.listUnsourced : List Expr → List Expr
  | [] => []
  | e :: rest => e.unsourced :: Expr.listUnsourced rest

def Step.unsourced : Step → Step
  | .field name => .field name
  | .index key => .index key.unsourced
  | .joinFrom start => .joinFrom start
  | .call name args => .call name (Expr.listUnsourced args)

def Step.listUnsourced : List Step → List Step
  | [] => []
  | step :: rest => step.unsourced :: Step.listUnsourced rest

end

/-! ### The same tokens elsewhere -/

/-- Whether tokens have the same kinds and texts, wherever they stand. -/
def Token.Alike (ts us : List Token) : Prop :=
  us.map Token.lexed = ts.map Token.lexed

namespace Token.Alike

variable {ts us vs : List Token} {x y : Token}

theorem symm (h : Alike ts us) : Alike us ts :=
  Eq.symm h

theorem nil (h : Alike [] us) : us = [] :=
  List.map_eq_nil_iff.mp h

theorem cons (h : Alike (x :: ts) us) :
    ∃ p vs, us = { x with position := p } :: vs ∧ Alike ts vs := by
  obtain ⟨y, vs, rfl, same, rest⟩ := List.map_eq_cons_iff.mp h
  obtain ⟨kind, text⟩ := Prod.mk.inj same
  refine ⟨y.position, vs, ?_, rest⟩
  rw [← kind, ← text]

theorem cons_cons (h : Alike (x :: y :: ts) us) : ∃ p q vs,
    us = { x with position := p } :: { y with position := q } :: vs ∧ Alike ts vs := by
  obtain ⟨p, rest, rfl, later⟩ := h.cons
  obtain ⟨q, vs, rfl, behind⟩ := later.cons
  exact ⟨p, q, vs, rfl, behind⟩

theorem split (h : Alike (ts ++ us) vs) :
    ∃ front back, vs = front ++ back ∧ Alike ts front ∧ Alike us back := by
  rw [Alike, List.map_append] at h
  exact List.map_eq_append_iff.mp h

theorem split_cons (h : Alike (ts ++ x :: us) vs) :
    ∃ front p back, vs = front ++ { x with position := p } :: back ∧ Alike ts front ∧
      Alike us back := by
  obtain ⟨front, rest, rfl, first, later⟩ := h.split
  obtain ⟨p, back, rfl, behind⟩ := later.cons
  exact ⟨front, p, back, rfl, first, behind⟩

end Token.Alike

namespace Grammar

open Token (Alike)

variable {source source' : Nat → Nat → Text}

/-! By induction on the derivation: each phrase is derived from its tokens as they stand elsewhere,
since no rule looks at a place but that for paths, which only keeps the text. -/

mutual

theorem Disjunction.alike {n : Nat} {ts us : List Token} {e : Expr} : Disjunction source n ts e →
    Alike ts us → ∃ e', Disjunction source' n us e' ∧ e'.unsourced = e.unsourced
  | .single only, alike => by
    obtain ⟨e', only, same⟩ := only.alike alike
    exact ⟨e', .single only, same⟩
  | .several first or others, alike => by
    obtain ⟨front, p, back, rfl, front_alike, back_alike⟩ := alike.split_cons
    obtain ⟨e', first, same⟩ := first.alike front_alike
    obtain ⟨es', others, sames⟩ := others.alike back_alike
    exact ⟨_, .several first or others, by
      simp only [Expr.unsourced, Expr.listUnsourced, same, sames]⟩

theorem Disjuncts.alike {n : Nat} {ts us : List Token} {es : List Expr} : Disjuncts source n ts es →
    Alike ts us → ∃ es', Disjuncts source' n us es' ∧
      Expr.listUnsourced es' = Expr.listUnsourced es
  | .last only, alike => by
    obtain ⟨e', only, same⟩ := only.alike alike
    exact ⟨_, .last only, by simp only [Expr.listUnsourced, same]⟩
  | .more first or others, alike => by
    obtain ⟨front, p, back, rfl, front_alike, back_alike⟩ := alike.split_cons
    obtain ⟨e', first, same⟩ := first.alike front_alike
    obtain ⟨es', others, sames⟩ := others.alike back_alike
    exact ⟨_, .more first or others, by simp only [Expr.listUnsourced, same, sames]⟩

theorem Conjunction.alike {n : Nat} {ts us : List Token} {e : Expr} : Conjunction source n ts e →
    Alike ts us → ∃ e', Conjunction source' n us e' ∧ e'.unsourced = e.unsourced
  | .single only, alike => by
    obtain ⟨e', only, same⟩ := only.alike alike
    exact ⟨e', .single only, same⟩
  | .several first and others, alike => by
    obtain ⟨front, p, back, rfl, front_alike, back_alike⟩ := alike.split_cons
    obtain ⟨e', first, same⟩ := first.alike front_alike
    obtain ⟨es', others, sames⟩ := others.alike back_alike
    exact ⟨_, .several first and others, by
      simp only [Expr.unsourced, Expr.listUnsourced, same, sames]⟩

theorem Conjuncts.alike {n : Nat} {ts us : List Token} {es : List Expr} : Conjuncts source n ts es →
    Alike ts us → ∃ es', Conjuncts source' n us es' ∧
      Expr.listUnsourced es' = Expr.listUnsourced es
  | .last only, alike => by
    obtain ⟨e', only, same⟩ := only.alike alike
    exact ⟨_, .last only, by simp only [Expr.listUnsourced, same]⟩
  | .more first and others, alike => by
    obtain ⟨front, p, back, rfl, front_alike, back_alike⟩ := alike.split_cons
    obtain ⟨e', first, same⟩ := first.alike front_alike
    obtain ⟨es', others, sames⟩ := others.alike back_alike
    exact ⟨_, .more first and others, by simp only [Expr.listUnsourced, same, sames]⟩

theorem Unary.alike {n : Nat} {ts us : List Token} {e : Expr} : Unary source n ts e →
    Alike ts us → ∃ e', Unary source' n us e' ∧ e'.unsourced = e.unsourced
  | .negation not operand, alike => by
    obtain ⟨p, back, rfl, back_alike⟩ := alike.cons
    obtain ⟨e', operand, same⟩ := operand.alike back_alike
    exact ⟨_, .negation not operand, by simp only [Expr.unsourced, same]⟩
  | .comparison plain operand, alike => by
    obtain ⟨e', operand, same⟩ := operand.alike alike
    obtain ⟨p, back, rfl, _⟩ := alike.cons
    exact ⟨e', .comparison plain operand, same⟩

theorem Comparison.alike {n : Nat} {ts us : List Token} {e : Expr} : Comparison source n ts e →
    Alike ts us → ∃ e', Comparison source' n us e' ∧ e'.unsourced = e.unsourced
  | .primary only, alike => by
    obtain ⟨e', only, same⟩ := only.alike alike
    exact ⟨e', .primary only, same⟩
  | .relation first op symbol second, alike => by
    obtain ⟨front, p, back, rfl, front_alike, back_alike⟩ := alike.split_cons
    obtain ⟨left, first, same⟩ := first.alike front_alike
    obtain ⟨right, second, same'⟩ := second.alike back_alike
    exact ⟨_, .relation first op symbol second, by simp only [Expr.unsourced, same, same']⟩

theorem Primary.alike {n : Nat} {ts us : List Token} {e : Expr} : Primary source n ts e →
    Alike ts us → ∃ e', Primary source' n us e' ∧ e'.unsourced = e.unsourced
  | .number kind value, alike => by
    obtain ⟨p, back, rfl, none⟩ := alike.cons
    obtain rfl := none.nil
    exact ⟨_, .number kind value, rfl⟩
  | .negative op mark kind value, alike => by
    obtain ⟨p, q, back, rfl, none⟩ := alike.cons_cons
    obtain rfl := none.nil
    exact ⟨_, .negative op mark kind value, rfl⟩
  | .string kind, alike => by
    obtain ⟨p, back, rfl, none⟩ := alike.cons
    obtain rfl := none.nil
    exact ⟨_, .string kind, rfl⟩
  | .word kind value, alike => by
    obtain ⟨p, back, rfl, none⟩ := alike.cons
    obtain rfl := none.nil
    exact ⟨_, .word kind value, rfl⟩
  | .group op left inside right, alike => by
    obtain ⟨p, tail, rfl, tail_alike⟩ := alike.cons
    obtain ⟨front, q, back, rfl, front_alike, none⟩ := tail_alike.split_cons
    obtain rfl := none.nil
    obtain ⟨e', inside, same⟩ := inside.alike front_alike
    exact ⟨e', .group op left inside right, same⟩
  | .path kind free steps, alike => by
    obtain ⟨p, back, rfl, back_alike⟩ := alike.cons
    obtain ⟨ss', steps, same⟩ := steps.alike back_alike
    exact ⟨_, .path kind free steps, by simp only [Expr.unsourced, same]⟩

theorem Steps.alike {n : Nat} {ts us : List Token} {ss : List Step} : Steps source n ts ss →
    Alike ts us → ∃ ss', Steps source' n us ss' ∧ Step.listUnsourced ss' = Step.listUnsourced ss
  | .none, alike => by
    obtain rfl := alike.nil
    exact ⟨_, .none, rfl⟩
  | .field mark kind others, alike => by
    obtain ⟨p, q, back, rfl, back_alike⟩ := alike.cons_cons
    obtain ⟨ss', others, sames⟩ := others.alike back_alike
    exact ⟨_, .field mark kind others, by simp only [Step.listUnsourced, sames]⟩
  | .call mark kind left inside right others, alike => by
    obtain ⟨p, q, tail, rfl, tail_alike⟩ := alike.cons_cons
    obtain ⟨r, rest, rfl, rest_alike⟩ := tail_alike.cons
    obtain ⟨front, _, back, rfl, front_alike, back_alike⟩ := rest_alike.split_cons
    obtain ⟨es', inside, same⟩ := inside.alike front_alike
    obtain ⟨ss', others, sames⟩ := others.alike back_alike
    exact ⟨_, .call mark kind left inside right others, by
      simp only [Step.listUnsourced, Step.unsourced, same, sames]⟩
  | .index mark kind whole value others, alike => by
    obtain ⟨p, q, back, rfl, back_alike⟩ := alike.cons_cons
    obtain ⟨ss', others, sames⟩ := others.alike back_alike
    exact ⟨_, .index mark kind whole value others, by simp only [Step.listUnsourced, sames]⟩
  | .join mark kind whole value sign others, alike => by
    obtain ⟨p, q, tail, rfl, tail_alike⟩ := alike.cons_cons
    obtain ⟨r, back, rfl, back_alike⟩ := tail_alike.cons
    obtain ⟨ss', others, sames⟩ := others.alike back_alike
    exact ⟨_, .join mark kind whole value sign others, by simp only [Step.listUnsourced, sames]⟩
  | .indices mark kind pieces first second others, alike => by
    obtain ⟨p, q, back, rfl, back_alike⟩ := alike.cons_cons
    obtain ⟨ss', others, sames⟩ := others.alike back_alike
    exact ⟨_, .indices mark kind pieces first second others, by
      simp only [Step.listUnsourced, sames]⟩
  | .key left key right others, alike => by
    obtain ⟨p, tail, rfl, tail_alike⟩ := alike.cons
    obtain ⟨front, q, back, rfl, front_alike, back_alike⟩ := tail_alike.split_cons
    obtain ⟨e', key, same⟩ := key.alike front_alike
    obtain ⟨ss', others, sames⟩ := others.alike back_alike
    exact ⟨_, .key left key right others, by
      simp only [Step.listUnsourced, Step.unsourced, same, sames]⟩

theorem Arguments.alike {n : Nat} {ts us : List Token} {es : List Expr} : Arguments source n ts es →
    Alike ts us → ∃ es', Arguments source' n us es' ∧
      Expr.listUnsourced es' = Expr.listUnsourced es
  | .none, alike => by
    obtain rfl := alike.nil
    exact ⟨_, .none, rfl⟩
  | .some list, alike => by
    obtain ⟨es', list, same⟩ := list.alike alike
    exact ⟨es', .some list, same⟩

theorem ArgumentList.alike {n : Nat} {ts us : List Token} {es : List Expr} :
    ArgumentList source n ts es → Alike ts us →
      ∃ es', ArgumentList source' n us es' ∧ Expr.listUnsourced es' = Expr.listUnsourced es
  | .last only, alike => by
    obtain ⟨e', only, same⟩ := only.alike alike
    exact ⟨_, .last only, by simp only [Expr.listUnsourced, same]⟩
  | .more first mark others, alike => by
    obtain ⟨front, p, back, rfl, front_alike, back_alike⟩ := alike.split_cons
    obtain ⟨e', first, same⟩ := first.alike front_alike
    obtain ⟨es', others, sames⟩ := others.alike back_alike
    exact ⟨_, .more first mark others, by simp only [Expr.listUnsourced, same, sames]⟩

end

end Grammar

/-! ### Reading the same tokens -/

open Token (Alike Scans)

section Reading

variable {s t : Text} {ts us : List Token} (scans : Scans 0 t ts) (others : Scans 0 s us)
  (alike : Alike ts us)
include scans others alike

theorem Expr.parse_of_alike {e : Expr} (read : Expr.parse t = .ok e) :
    ∃ e', Expr.parse s = .ok e' ∧ e'.unsourced = e.unsourced := by
  rw [Expr.parse_eq_parseWithin] at read
  obtain ⟨found, found_scans, derived⟩ := Expr.derives_of_parseWithin read
  obtain rfl : ts = found := Except.ok.inj (scans.scanAt_eq.symm.trans found_scans.scanAt_eq)
  obtain ⟨e', derived, same⟩ := derived.alike alike
  exact ⟨e', Expr.parseWithin_of_derives others derived, same⟩

/-- Texts with the same tokens are both read, as the same but for sources, or are both refused. -/
theorem Expr.parse_alike : (Expr.parse s).toOption.map Expr.unsourced =
    (Expr.parse t).toOption.map Expr.unsourced := by
  cases read : Expr.parse t with
  | ok e =>
    obtain ⟨e', read', same⟩ := Expr.parse_of_alike scans others alike read
    rw [read']
    exact congrArg some same
  | error fault =>
    cases read' : Expr.parse s with
    | ok e' =>
      obtain ⟨e, accepted, _⟩ := Expr.parse_of_alike others scans alike.symm read'
      rw [read] at accepted
      cases accepted
    | error => rfl

end Reading

/-- The tokens of a text are all of it but white space; they come out of the text with a space
between each two of them again, and that text reads as the same expression. -/
theorem Expr.parse_spaced {t : Text} {ts : List Token} (scanned : Token.scan t = .ok ts) :
    Token.Tiles 0 t ts ∧ ∃ us, Token.scan (Token.spaced ts) = .ok us ∧
      us.map Token.lexed = ts.map Token.lexed ∧
      (Expr.parse (Token.spaced ts)).toOption.map Expr.unsourced =
        (Expr.parse t).toOption.map Expr.unsourced := by
  have scans := Token.scans_of_scanAt scanned
  obtain ⟨us, others, alike⟩ := Token.scans_spaced (Token.whole_scanAt scanned) 0
  exact ⟨scans.tiles rfl, us, others.scanAt_eq, alike, Expr.parse_alike scans others alike⟩

theorem Expr.parse_spaced_fraction :
    let t := "a.0.1<=-2.5||!b['x  y']\u00a0".toList
    let s := "a . 0.1 <= - 2.5 || ! b [ 'x  y' ]".toList
    ∃ ts us, Token.scan t = .ok ts ∧ Token.spaced ts = s ∧ Token.Tiles 0 t ts ∧
      Token.scan s = .ok us ∧ us.map Token.lexed = ts.map Token.lexed ∧
      (Expr.parse s).toOption.map Expr.unsourced =
        (Expr.parse t).toOption.map Expr.unsourced := by
  have scanned : Token.scan "a.0.1<=-2.5||!b['x  y']\u00a0".toList = .ok [
      ⟨.name, "a".toList, 0⟩, ⟨.op, ".".toList, 1⟩, ⟨.number, "0.1".toList, 2⟩,
      ⟨.op, "<=".toList, 5⟩, ⟨.op, "-".toList, 7⟩, ⟨.number, "2.5".toList, 8⟩,
      ⟨.op, "||".toList, 11⟩, ⟨.op, "!".toList, 13⟩, ⟨.name, "b".toList, 14⟩,
      ⟨.op, "[".toList, 15⟩, ⟨.string, "'x  y'".toList, 16⟩, ⟨.op, "]".toList, 22⟩] := by
    cbv
  intro t s
  obtain ⟨tiles, us, respaced⟩ := Expr.parse_spaced scanned
  exact ⟨_, us, scanned, rfl, tiles, respaced⟩

end ChatCommands
