import ChatCommands.Proofs.Expr.Grammar
import ChatCommands.Proofs.Expr.Reading
import ChatCommands.Proofs.Result

/-!
The parser reads exactly what the grammar derives.

One direction goes along the parser: whatever a reader takes from the front of the tokens derives
what it returns. The other goes along the derivation: its tokens are read to the end when what
stands behind them cannot continue them.
-/

namespace ChatCommands

namespace Token

theorem lastStop_cons (stop : Nat) (t : Token) (ts : List Token) :
    lastStop stop (t :: ts) = lastStop t.stop ts := by
  cases ts with
  | nil => rfl
  | cons u us => rw [lastStop, lastStop, List.getLast?_cons_cons, List.getLast?_cons]; rfl

theorem lastStop_append (stop : Nat) (ts us : List Token) :
    lastStop stop (ts ++ us) = lastStop (lastStop stop ts) us := by
  induction ts generalizing stop with
  | nil => rfl
  | cons t ts ih => rw [List.cons_append, lastStop_cons, ih, lastStop_cons]

end Token

namespace Parse

open Grammar Token

variable {α β : Type}

/-- The operands of a disjunction, when `unary` reads those of a conjunction. -/
def conjunctionOf (unary : Parse Expr) : Parse Expr := fun tokens =>
  (separated unary (fun t => t.isMark "&&" || t.isMark "and") (tokens.length + 1) tokens).map
    fun (es, rest) => (joined .all es, rest)

theorem disjunctionOf_eq (unary : Parse Expr) (tokens : List Token) :
    disjunctionOf unary tokens =
      (separated (conjunctionOf unary) (fun t => t.isMark "||" || t.isMark "or")
        (tokens.length + 1) tokens).map fun (es, rest) => (joined .any es, rest) := rfl

theorem isOr_iff {t : Token} : (t.isMark "||" || t.isMark "or") = true ↔ t.IsOr := by
  rw [Bool.or_eq_true, IsOr]

theorem isAnd_iff {t : Token} : (t.isMark "&&" || t.isMark "and") = true ↔ t.IsAnd := by
  rw [Bool.or_eq_true, IsAnd]

theorem isNot_iff {t : Token} : (t.isMark "!" || t.isMark "not") = true ↔ t.IsNot := by
  rw [Bool.or_eq_true, IsNot]

/-! ### What is read derives -/

/-- Whether the tokens that a reader takes from the front derive what it returns. -/
def Derives (good : List Token → α → Prop) (p : Parse α) : Prop :=
  ∀ ⦃tokens a rest⦄, (∀ t ∈ tokens, t.Shaped) → p tokens = .ok (a, rest) →
    ∃ ts, tokens = ts ++ rest ∧ good ts a

theorem derives_tooDeep {good : List Token → α → Prop} : Derives good tooDeep :=
  fun _ _ _ _ read => nomatch read

theorem derives_expect (mark : String) :
    Derives (fun ts t => ts = [t] ∧ t.isMark mark) (expect mark) := by
  intro tokens t rest _ read
  cases tokens with
  | nil => cases read
  | cons u us =>
    rw [expect] at read
    split at read
    · cases read
      exact ⟨[t], rfl, rfl, ‹_›⟩
    · cases read

theorem derives_separated {one : List Token → α → Prop} {many : List Token → List α → Prop}
    {item : Parse α} {isSeparator : Token → Bool} (first : Derives one item)
    (last : ∀ ts a, one ts a → many ts [a])
    (more : ∀ ts a t us as, one ts a → isSeparator t → many us as → many (ts ++ t :: us) (a :: as))
    (fuel : Nat) : Derives many (separated item isSeparator fuel) := by
  induction fuel with
  | zero => exact fun _ _ _ _ read => nomatch read
  | succ fuel ih =>
    intro tokens as final shaped read
    obtain ⟨⟨a, rest⟩, taken, after⟩ := bind_eq_ok.mp read
    obtain ⟨ts, rfl, derived⟩ := first shaped taken
    have shaped_rest : ∀ t ∈ rest, t.Shaped := fun t member =>
      shaped t (List.mem_append_right _ member)
    dsimp only at after
    split at after
    · cases after
      exact ⟨ts, rfl, last ts a derived⟩
    · rename_i t us
      split at after
      · rename_i separator
        obtain ⟨⟨others, final⟩, taken, same⟩ := bind_eq_ok.mp after
        cases same
        obtain ⟨us, rfl, derived'⟩ := ih (List.forall_mem_cons.mp shaped_rest).2 taken
        exact ⟨ts ++ t :: us, by simp, more ts a t us others derived separator derived'⟩
      · cases after
        exact ⟨ts, rfl, last ts a derived⟩

theorem derives_conjunctionOf {source : Nat → Nat → Text} {n : Nat} {unary : Parse Expr}
    (operand : Derives (Unary source n) unary) :
    Derives (Conjunction source n) (conjunctionOf unary) := by
  intro tokens e rest shaped read
  obtain ⟨⟨es, rest⟩, taken, same⟩ := map_eq_ok.mp read
  cases same
  have several (fuel : Nat) : Derives (Conjuncts source n) (separated unary _ fuel) :=
    derives_separated operand (fun _ _ => .last)
      (fun _ _ _ _ _ first mark others => .more first (isAnd_iff.mp mark) others) fuel
  obtain ⟨ts, rfl, derived⟩ := several _ shaped taken
  refine ⟨ts, rfl, ?_⟩
  cases derived with
  | last only => exact .single only
  | more first and others =>
    cases others with
    | last only => exact .several first and (.last only)
    | more second and' others => exact .several first and (.more second and' others)

theorem derives_disjunctionOf {source : Nat → Nat → Text} {n : Nat} {unary : Parse Expr}
    (operand : Derives (Unary source n) unary) :
    Derives (Disjunction source (n + 1)) (disjunctionOf unary) := by
  intro tokens e rest shaped read
  rw [disjunctionOf_eq] at read
  obtain ⟨⟨es, rest⟩, taken, same⟩ := map_eq_ok.mp read
  cases same
  have several (fuel : Nat) :
      Derives (Disjuncts source n) (separated (conjunctionOf unary) _ fuel) :=
    derives_separated (derives_conjunctionOf operand) (fun _ _ => .last)
      (fun _ _ _ _ _ first mark others => .more first (isOr_iff.mp mark) others) fuel
  obtain ⟨ts, rfl, derived⟩ := several _ shaped taken
  refine ⟨ts, rfl, ?_⟩
  cases derived with
  | last only => exact .single only
  | more first or others =>
    cases others with
    | last only => exact .several first or (.last only)
    | more second or' others => exact .several first or (.more second or' others)

section Nested

variable {source : Nat → Nat → Text} {n : Nat} {inner : Parse Expr}
  (nested : Derives (Disjunction source n) inner)

include nested

theorem derives_arguments (fuel : Nat) :
    Derives (fun ts x => ∃ list closing : _, ts = list ++ [closing] ∧ closing.isMark ")" ∧
      x.2 = closing.stop ∧ ArgumentList source n list x.1) (arguments inner fuel) := by
  induction fuel with
  | zero => exact fun _ _ _ _ read => nomatch read
  | succ fuel ih =>
    intro tokens x final shaped read
    obtain ⟨⟨e, rest⟩, taken, after⟩ := bind_eq_ok.mp read
    obtain ⟨ts, rfl, derived⟩ := nested shaped taken
    have shaped_rest : ∀ t ∈ rest, t.Shaped := fun t member =>
      shaped t (List.mem_append_right _ member)
    dsimp only at after
    split at after
    · cases after
    · rename_i t more
      split at after
      · rename_i closes
        cases after
        exact ⟨ts ++ [t], by simp, ts, t, rfl, closes, rfl, .last derived⟩
      · obtain ⟨⟨comma, more'⟩, taken, behind⟩ := bind_eq_ok.mp after
        obtain ⟨_, same, rfl, mark⟩ := derives_expect "," shaped_rest taken
        cases same
        obtain ⟨⟨⟨others, stop⟩, final⟩, taken, same⟩ := bind_eq_ok.mp behind
        cases same
        obtain ⟨_, rfl, list, closing, rfl, closes, stops, derived'⟩ :=
          ih (List.forall_mem_cons.mp shaped_rest).2 taken
        exact ⟨ts ++ t :: (list ++ [closing]), by simp, ts ++ t :: list, closing, by simp,
          closes, stops, .more derived mark derived'⟩

theorem derives_callArguments :
    Derives (fun ts x => ∃ list closing : _, ts = list ++ [closing] ∧ closing.isMark ")" ∧
      x.2 = closing.stop ∧ Arguments source n list x.1) (callArguments inner) := by
  intro tokens x rest shaped read
  have listed {fuel : Nat} (read : arguments inner fuel tokens = .ok (x, rest)) :
      ∃ ts, tokens = ts ++ rest ∧ ∃ list closing : _, ts = list ++ [closing] ∧
        closing.isMark ")" ∧ x.2 = closing.stop ∧ Arguments source n list x.1 := by
    obtain ⟨ts, split, list, closing, whole, closes, stops, derived⟩ :=
      derives_arguments nested fuel shaped read
    exact ⟨ts, split, list, closing, whole, closes, stops, .some derived⟩
  cases tokens with
  | nil => exact listed read
  | cons t us =>
    rw [callArguments] at read
    split at read
    · cases read
      exact ⟨[t], rfl, [], t, rfl, ‹_›, rfl, .none⟩
    · exact listed read

end Nested

/-- What the tokens after a dot add to the front of further steps, and where they end. -/
def Dotted (source : Nat → Nat → Text) (n : Nat) (ts : List Token) (x : List Step × Nat) : Prop :=
  (∀ stop, x.2 = lastStop stop ts) ∧ ∀ {dot us ss}, dot.isMark "." → Steps source n us ss →
    Steps source n (dot :: (ts ++ us)) (x.1 ++ ss)

theorem indexSteps_eq_ok {t : Token} {ss : List Step} :
    indexSteps t = .ok ss ↔
      ∃ ks : List Int,
        (t.text.splitOn '.').map Numeral.readInt = ks.map some ∧ ss = ks.map indexAt := by
  rw [indexSteps]
  generalize t.text.splitOn '.' = runs
  induction runs generalizing ss with
  | nil =>
    constructor
    · intro h
      cases h
      exact ⟨[], rfl, rfl⟩
    · rintro ⟨ks, none, rfl⟩
      rw [List.map_eq_nil_iff.mp none.symm]
      rfl
  | cons run runs ih =>
    rw [List.mapM_cons]
    cases value : Numeral.readInt run with
    | none =>
      refine ⟨nofun, ?_⟩
      rintro ⟨_ | ⟨k, ks⟩, all, _⟩
      · cases all
      · rw [List.map_cons, value] at all
        cases all
    | some k =>
      constructor
      · intro h
        obtain ⟨_, first, h⟩ := bind_eq_ok.mp h
        obtain ⟨others, later, same⟩ := bind_eq_ok.mp h
        cases first
        cases same
        obtain ⟨ks, all, rfl⟩ := ih.mp later
        exact ⟨k :: ks, by rw [List.map_cons, value, all]; rfl, rfl⟩
      · rintro ⟨_ | ⟨k', ks⟩, all, rfl⟩
        · cases all
        · rw [List.map_cons, value, List.map_cons] at all
          obtain ⟨same, rest⟩ := List.cons.inj all
          cases same
          have later := ih.mpr ⟨ks, rest, rfl⟩
          exact bind_eq_ok.mpr ⟨indexAt k, rfl, bind_eq_ok.mpr ⟨ks.map indexAt, later, rfl⟩⟩

theorem dotted_indices {source : Nat → Nat → Text} {n : Nat} {t : Token} {ss : List Step}
    (shaped : t.Shaped) (number : t.kind = .number) (read : indexSteps t = .ok ss) :
    Dotted source n [t] (ss, t.stop) := by
  refine ⟨fun _ => rfl, fun dot others => ?_⟩
  obtain ⟨ks, values, rfl⟩ := indexSteps_eq_ok.mp read
  rcases shaped number with digits | ⟨whole, fraction, hw, hf, text⟩
  · rw [splitOn_digits digits] at values
    obtain ⟨k, rfl, value⟩ := List.map_eq_singleton_iff.mp values.symm
    exact .index dot number (digits.ne (by decide)) value.symm others
  · have pieces := splitOn_point hw hf
    rw [← text] at pieces
    rw [pieces] at values
    obtain ⟨i, ks, rfl, first, rest⟩ := List.map_eq_cons_iff.mp values.symm
    obtain ⟨j, rfl, second⟩ := List.map_eq_singleton_iff.mp rest
    exact .indices dot number pieces first.symm second.symm others

theorem dotted_numericStep {source : Nat → Nat → Text} {n : Nat} {t : Token}
    {rest final : List Token} {x : List Step × Nat} (shaped : t.Shaped) (number : t.kind = .number)
    (read : numericStep t rest = .ok (x, final)) :
    ∃ ts, t :: rest = ts ++ final ∧ Dotted source n ts x := by
  have indices (read : ((indexSteps t).map fun ss => ((ss, t.stop), rest)) = .ok (x, final)) :
      ∃ ts, t :: rest = ts ++ final ∧ Dotted source n ts x := by
    obtain ⟨ss, taken, same⟩ := map_eq_ok.mp read
    cases same
    exact ⟨[t], rfl, dotted_indices shaped number taken⟩
  unfold numericStep at read
  dsimp only at read
  split at read
  · exact indices read
  · rename_i plus more
    split at read
    -- A plus is taken only after a number without a point; otherwise it is left for what follows.
    · rename_i joins
      rw [Bool.and_eq_true, Bool.not_eq_true', List.contains_eq_mem,
        decide_eq_false_iff_not] at joins
      split at read
      · rename_i k value
        cases read
        refine ⟨[t, plus], rfl, fun _ => rfl, fun dot others => ?_⟩
        exact .join dot number joins.2 value joins.1 others
      · cases read
    · exact indices read

theorem derives_number {t : Token} {rest tokens : List Token} {f : Scalar → Expr} {e : Expr}
    (read : ((numberLiteral t).map fun s => (f s, rest)) = .ok (e, tokens)) :
    tokens = rest ∧ ∃ s, t.numberValue = .ok s ∧ e = f s := by
  obtain ⟨s, value, same⟩ := map_eq_ok.mp read
  cases same
  refine ⟨rfl, s, ?_, rfl⟩
  rw [numberLiteral] at value
  cases h : t.numberValue with
  | error c =>
    rw [h] at value
    cases value
  | ok s' =>
    rw [h] at value
    cases value
    rfl

section Grammatical

variable {source : Nat → Nat → Text} {n : Nat} {inner : Parse Expr}
  (nested : Derives (Disjunction source n) inner)

include nested

/-- What stands in front of a closing mark. -/
theorem derives_closed {tokens more final : List Token} {e : Expr} {closing : Token}
    {symbol : String} (shaped : ∀ t ∈ tokens, t.Shaped) (taken : inner tokens = .ok (e, more))
    (closed : expect symbol more = .ok (closing, final)) :
    ∃ ts, tokens = ts ++ closing :: final ∧ Disjunction source n ts e ∧ closing.isMark symbol := by
  obtain ⟨ts, rfl, derived⟩ := nested shaped taken
  obtain ⟨_, rfl, rfl, right⟩ := derives_expect symbol
    (fun t member => shaped t (List.mem_append_right _ member)) closed
  exact ⟨ts, rfl, derived, right⟩

theorem derives_dottedStep : Derives (Dotted source n) (dottedStep inner) := by
  intro tokens x final shaped read
  cases tokens with
  | nil => cases read
  | cons t rest =>
    obtain ⟨shaped_first, shaped_rest⟩ := List.forall_mem_cons.mp shaped
    have field (name : t.kind = .name) : Dotted source n [t] ([.field t.text], t.stop) :=
      ⟨fun _ => rfl, fun dot others => .field dot name others⟩
    unfold dottedStep at read
    dsimp only at read
    split at read
    · rename_i name
      split at read
      · rename_i paren more
        split at read
        · rename_i left
          obtain ⟨⟨⟨es, stop⟩, final⟩, taken, same⟩ := bind_eq_ok.mp read
          cases same
          obtain ⟨_, rfl, list, closing, rfl, right, rfl, inside⟩ :=
            derives_callArguments nested (List.forall_mem_cons.mp shaped_rest).2 taken
          refine ⟨t :: paren :: (list ++ [closing]), by simp, fun stop => ?_,
            fun dot others => ?_⟩
          · rw [lastStop_cons, lastStop_cons, lastStop_append]
            rfl
          · simpa using Steps.call dot name left inside right others
        · cases read
          exact ⟨[t], rfl, field name⟩
      · cases read
        exact ⟨[t], rfl, field name⟩
    · exact dotted_numericStep shaped_first ‹_› read
    · cases read

theorem derives_steps (fuel stop : Nat) :
    Derives (fun ts x => Steps source n ts x.1 ∧ x.2 = lastStop stop ts)
      (steps inner fuel stop) := by
  induction fuel generalizing stop with
  | zero =>
    intro tokens x rest _ read
    cases read
    exact ⟨[], rfl, .none, rfl⟩
  | succ fuel ih =>
    intro tokens x final shaped read
    cases tokens with
    | nil =>
      cases read
      exact ⟨[], rfl, .none, rfl⟩
    | cons t rest =>
      obtain ⟨_, shaped_rest⟩ := List.forall_mem_cons.mp shaped
      rw [steps] at read
      split at read
      · rename_i dot
        obtain ⟨⟨⟨first, stop'⟩, more⟩, taken, read⟩ := bind_eq_ok.mp read
        obtain ⟨⟨⟨others, stop''⟩, final⟩, later, same⟩ := bind_eq_ok.mp read
        cases same
        obtain ⟨ts, rfl, ends, extends_by⟩ := derives_dottedStep nested shaped_rest taken
        obtain ⟨us, rfl, derived, rfl⟩ := ih stop' (fun u member =>
          shaped_rest u (List.mem_append_right _ member)) later
        refine ⟨t :: (ts ++ us), by simp, extends_by dot derived, ?_⟩
        rw [lastStop_cons, lastStop_append, ← ends]
      · split at read
        · rename_i left
          obtain ⟨⟨key, more⟩, taken, read⟩ := bind_eq_ok.mp read
          obtain ⟨⟨closing, more'⟩, closed, read⟩ := bind_eq_ok.mp read
          obtain ⟨⟨⟨others, stop'⟩, final⟩, later, same⟩ := bind_eq_ok.mp read
          cases same
          obtain ⟨ts, rfl, derived, right⟩ := derives_closed nested shaped_rest taken closed
          obtain ⟨us, rfl, derived', rfl⟩ := ih closing.stop (fun u member =>
            shaped_rest u (List.mem_append_right _ (List.mem_cons_of_mem _ member))) later
          refine ⟨t :: (ts ++ closing :: us), by simp, .key left derived right derived', ?_⟩
          rw [lastStop_cons, lastStop_append, lastStop_cons]
        · cases read
          exact ⟨[], rfl, .none, rfl⟩

theorem derives_path : Derives (fun ts p => ∃ root us, ts = root :: us ∧ root.kind = .name ∧
    p.root = root.text ∧ Steps source n us p.steps ∧
    p.source = source root.position (lastStop root.stop us)) (path source inner) := by
  intro tokens p rest shaped read
  cases tokens with
  | nil => cases read
  | cons t us =>
    rw [path] at read
    split at read
    · rename_i name
      obtain ⟨⟨⟨ss, stop⟩, final⟩, taken, same⟩ := bind_eq_ok.mp read
      cases same
      obtain ⟨ts, rfl, derived, rfl⟩ :=
        derives_steps nested _ _ (List.forall_mem_cons.mp shaped).2 taken
      exact ⟨t :: ts, rfl, t, ts, rfl, name, rfl, derived, rfl⟩
    · cases read

theorem derives_primary : Derives (Primary source n) (primary source inner) := by
  intro tokens e final shaped read
  cases tokens with
  | nil => cases read
  | cons t rest =>
    unfold primary at read
    dsimp only at read
    split at read
    · rename_i number
      obtain ⟨rfl, s, value, rfl⟩ := derives_number read
      exact ⟨[t], rfl, .number number value⟩
    · rename_i string
      cases read
      exact ⟨[t], rfl, .string string⟩
    · rename_i name
      split at read
      · rename_i s literal
        cases read
        exact ⟨[t], rfl, .word name literal⟩
      · rename_i free
        obtain ⟨⟨p, rest'⟩, taken, same⟩ := map_eq_ok.mp read
        cases same
        obtain ⟨_, split, root, us, rfl, kind, named, derived, text⟩ :=
          derives_path nested shaped taken
        refine ⟨root :: us, split, ?_⟩
        obtain ⟨rfl, _⟩ := List.cons.inj split
        rw [Path.expr, named, text]
        exact .path kind free derived
    · rename_i op
      split at read
      · rename_i minus
        split at read
        · rename_i number more
          split at read
          · rename_i kind
            obtain ⟨rfl, s, value, rfl⟩ := derives_number read
            exact ⟨[t, number], rfl, .negative op minus kind value⟩
          · cases read
        · cases read
      · split at read
        · rename_i left
          obtain ⟨⟨e, more⟩, taken, read⟩ := bind_eq_ok.mp read
          obtain ⟨⟨closing, final⟩, closed, same⟩ := bind_eq_ok.mp read
          cases same
          obtain ⟨ts, rfl, derived, right⟩ :=
            derives_closed nested (List.forall_mem_cons.mp shaped).2 taken closed
          exact ⟨t :: (ts ++ [closing]), by simp, .group op left derived right⟩
        · cases read

theorem derives_comparison : Derives (Comparison source n) (comparison source inner) := by
  intro tokens e final shaped read
  obtain ⟨⟨left, rest⟩, taken, after⟩ := bind_eq_ok.mp read
  obtain ⟨ts, rfl, first⟩ := derives_primary nested shaped taken
  dsimp only at after
  split at after
  · cases after
    exact ⟨ts, rfl, .primary first⟩
  · rename_i t more
    split at after
    · rename_i r symbol
      obtain ⟨⟨right, rest⟩, taken, same⟩ := bind_eq_ok.mp after
      cases same
      obtain ⟨us, rfl, second⟩ := derives_primary nested (fun u member =>
        shaped u (List.mem_append_right _ (List.mem_cons_of_mem _ member))) taken
      split at symbol
      · exact ⟨ts ++ t :: us, by simp, .relation first ‹_› symbol second⟩
      · cases symbol
    · cases after
      exact ⟨ts, rfl, .primary first⟩

end Grammatical

theorem derives_unaryWith {source : Nat → Nat → Text} {n : Nat} {operand inner : Parse Expr}
    {good : List Token → Expr → Prop} (negated : Derives good operand)
    (negation : ∀ {t ts e}, t.IsNot → good ts e → Unary source n (t :: ts) (.not e))
    (nested : Derives (Disjunction source n) inner) :
    Derives (Unary source n) (unaryWith source operand inner) := by
  intro tokens e final shaped read
  cases tokens with
  | nil => cases read
  | cons t rest =>
    rw [unaryWith] at read
    split at read
    · rename_i not
      obtain ⟨⟨e, final⟩, taken, same⟩ := map_eq_ok.mp read
      cases same
      obtain ⟨ts, rfl, derived⟩ := negated (List.forall_mem_cons.mp shaped).2 taken
      exact ⟨t :: ts, rfl, negation (isNot_iff.mp not) derived⟩
    · rename_i plain
      obtain ⟨ts, split, derived⟩ := derives_comparison nested shaped read
      obtain ⟨u, us, rfl⟩ := derived.exists_cons
      obtain ⟨rfl, rfl⟩ := List.cons.inj split
      exact ⟨t :: us, rfl, .comparison (fun not => plain (isNot_iff.mpr not)) derived⟩

theorem derives_unary (source : Nat → Nat → Text) (n : Nat) :
    Derives (Unary source n) (unary source n) := by
  induction n with
  | zero =>
    -- No level is left: neither a negation nor anything in brackets can be read any more.
    have none : Derives (fun _ (_ : Expr) => False) tooDeep := derives_tooDeep
    exact derives_unaryWith none (fun _ => nofun) derives_tooDeep
  | succ n ih => exact derives_unaryWith ih .negation (derives_disjunctionOf ih)

theorem derives_disjunction (source : Nat → Nat → Text) (n : Nat) :
    Derives (Disjunction source n) (disjunction source n) := by
  cases n with
  | zero => exact derives_tooDeep
  | succ n => exact derives_disjunctionOf (derives_unary source n)

end Parse

end ChatCommands
