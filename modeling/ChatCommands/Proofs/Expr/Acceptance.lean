import ChatCommands.Proofs.Expr.Derivation

/-!
What the grammar derives is read, and read to its end.

A reader stops where it should because of the mark that stands behind: a closing mark behind a
disjunction, and further out also a connective or a relation. None of them can continue a path.
-/

namespace ChatCommands

namespace Token

/-- What may stand behind a disjunction. -/
def closers : List String := [")", "]", ","]

def afterConjunction : List String := "||" :: "or" :: closers

def afterUnary : List String := "&&" :: "and" :: afterConjunction

def afterPrimary : List String := Relation.all.map Relation.symbol ++ afterUnary

/-- Whether tokens are at their end or go on with one of some marks. -/
def GoOn (marks : List String) (ts : List Token) : Prop :=
  ∀ t ∈ ts.head?, ∃ mark ∈ marks, t.text = mark.toList

theorem text_of_isMark {t : Token} {mark : String} (h : t.isMark mark = true) :
    t.text = mark.toList := by
  rw [isMark, Bool.and_eq_true, beq_iff_eq] at h
  exact h.2

theorem isMark_of_text {t : Token} {mark other : String} (text : t.text = mark.toList)
    (apart : mark ≠ other) : t.isMark other = false := by
  rw [Bool.eq_false_iff]
  intro h
  exact apart (String.toList_inj.mp (text.symm.trans (text_of_isMark h)))

theorem isMark_other {t : Token} {mark : String} (h : t.isMark mark = true) (other : String)
    (apart : mark ≠ other) : t.isMark other = false :=
  isMark_of_text (text_of_isMark h) apart

namespace GoOn

variable {marks : List String} {ts : List Token}

theorem nil : GoOn marks [] :=
  nofun

theorem mono {more : List String} (h : GoOn marks ts) (subset : marks ⊆ more) : GoOn more ts :=
  fun t first => (h t first).imp fun _ mark => ⟨subset mark.1, mark.2⟩

theorem cons {t : Token} {mark : String} (h : t.isMark mark = true) (member : mark ∈ marks) :
    GoOn marks (t :: ts) := by
  rintro _ ⟨⟩
  exact ⟨mark, member, text_of_isMark h⟩

theorem isMark {t : Token} (h : GoOn marks (t :: ts)) (mark : String) (apart : mark ∉ marks) :
    t.isMark mark = false := by
  obtain ⟨other, member, text⟩ := h t rfl
  exact isMark_of_text text fun same => apart (same ▸ member)

end GoOn

theorem IsOr.goOn {t : Token} {ts : List Token} (h : t.IsOr) : GoOn afterConjunction (t :: ts) :=
  h.elim (fun h => .cons h (by decide)) (fun h => .cons h (by decide))

theorem IsAnd.goOn {t : Token} {ts : List Token} (h : t.IsAnd) : GoOn afterUnary (t :: ts) :=
  h.elim (fun h => .cons h (by decide)) (fun h => .cons h (by decide))

end Token

theorem Relation.eq_of_ofSymbol? {t : Text} {r : Relation} (h : ofSymbol? t = some r) :
    t = r.symbol.toList := by
  have same := List.find?_some h
  exact (eq_of_beq same).symm

namespace Parse

open Grammar Token

variable {α : Type} {source : Nat → Nat → Text} {inner : Parse Expr}

section Separated

variable {item : Parse α} {isSeparator : Token → Bool} {tokens rest : List Token} {a : α}

theorem separated_last (first : item tokens = .ok (a, rest))
    (ends : ∀ t ∈ rest.head?, isSeparator t = false) (fuel : Nat) :
    separated item isSeparator (fuel + 1) tokens = .ok ([a], rest) := by
  rw [separated, first]
  cases rest with
  | nil => rfl
  | cons t us =>
    have := ends t rfl
    simp [bind, Except.bind, this, pure, Except.pure]

theorem separated_more {t : Token} {ts us : List Token} {as : List α} {fuel : Nat}
    (first : item (ts ++ t :: (us ++ rest)) = .ok (a, t :: (us ++ rest)))
    (separator : isSeparator t = true)
    (others : separated item isSeparator fuel (us ++ rest) = .ok (as, rest)) :
    separated item isSeparator (fuel + 1) (ts ++ t :: us ++ rest) = .ok (a :: as, rest) := by
  rw [List.append_assoc, List.cons_append, separated, first]
  simp [bind, Except.bind, separator, others, pure, Except.pure]

end Separated

section Steps

variable {tokens more final : List Token}

theorem steps_none (fuel stop : Nat) (ends : GoOn afterPrimary tokens) :
    steps inner fuel stop tokens = .ok (([], stop), tokens) := by
  cases fuel with
  | zero => rfl
  | succ fuel =>
    cases tokens with
    | nil => rfl
    | cons t rest =>
      have dot := ends.isMark "." (by decide)
      have left := ends.isMark "[" (by decide)
      simp [steps, dot, left, pure, Except.pure]

theorem steps_dotted {dot : Token} {first others : List Step} {fuel stop stop' stop'' : Nat}
    (mark : dot.isMark ".") (step : dottedStep inner tokens = .ok ((first, stop'), more))
    (rest : steps inner fuel stop' more = .ok ((others, stop''), final)) :
    steps inner (fuel + 1) stop (dot :: tokens) = .ok ((first ++ others, stop''), final) := by
  rw [steps, if_pos mark]
  exact bind_eq_ok.mpr ⟨_, step, bind_eq_ok.mpr ⟨_, rest, rfl⟩⟩

theorem steps_key {opening closing : Token} {key : Expr} {others : List Step}
    {fuel stop stop' : Nat} (left : opening.isMark "[")
    (inside : inner tokens = .ok (key, closing :: more)) (right : closing.isMark "]")
    (rest : steps inner fuel closing.stop more = .ok ((others, stop'), final)) :
    steps inner (fuel + 1) stop (opening :: tokens) =
      .ok ((.index key :: others, stop'), final) := by
  have dot := isMark_other left "." (by decide)
  rw [steps, if_neg (by rw [dot]; exact Bool.false_ne_true), if_pos left]
  have closed : expect "]" (closing :: more) = .ok (closing, more) := if_pos right
  exact bind_eq_ok.mpr ⟨_, inside, bind_eq_ok.mpr ⟨_, closed, bind_eq_ok.mpr ⟨_, rest, rfl⟩⟩⟩

end Steps

/-! ### First tokens -/

section First

variable {n : Nat} {ts : List Token} {e : Expr}

theorem isMark_of_kind {t : Token} (op : t.kind ≠ .op) (name : t.kind ≠ .name) (mark : String) :
    t.isMark mark = false := by
  rw [isMark, beq_eq_false_iff_ne.mpr op, beq_eq_false_iff_ne.mpr name]
  rfl

/-- Whether tokens begin with one that does not close anything. -/
def Opens (ts : List Token) : Prop :=
  ∃ t us, ts = t :: us ∧ t.isMark ")" = false

theorem Opens.append {us : List Token} (h : Opens ts) : Opens (ts ++ us) := by
  obtain ⟨t, rest, rfl, other⟩ := h
  exact ⟨t, rest ++ us, rfl, other⟩

theorem opens_primary (h : Primary source n ts e) (named : ∀ t ∈ ts, t.Named) : Opens ts := by
  have start {t : Token} (member : t ∈ ts) (kind : t.kind = .name) : t.isMark ")" = false :=
    (named t member).isMark_of_kind kind rfl (by decide)
  cases h with
  | number kind value => exact ⟨_, _, rfl, isMark_of_kind (by simp [kind]) (by simp [kind]) _⟩
  | negative op minus kind value => exact ⟨_, _, rfl, isMark_other minus _ (by decide)⟩
  | string kind => exact ⟨_, _, rfl, isMark_of_kind (by simp [kind]) (by simp [kind]) _⟩
  | word kind value => exact ⟨_, _, rfl, start (by simp) kind⟩
  | group op left inside right => exact ⟨_, _, rfl, isMark_other left _ (by decide)⟩
  | path kind free others => exact ⟨_, _, rfl, start (by simp) kind⟩

theorem opens_comparison (h : Comparison source n ts e) (named : ∀ t ∈ ts, t.Named) :
    Opens ts := by
  cases h with
  | primary only => exact opens_primary only named
  | relation first =>
    exact (opens_primary first fun t member => named t (List.mem_append_left _ member)).append

theorem opens_unary (h : Unary source n ts e) (named : ∀ t ∈ ts, t.Named) : Opens ts := by
  cases h with
  | negation not operand =>
    refine ⟨_, _, rfl, ?_⟩
    exact not.elim (fun h => isMark_other h _ (by decide)) fun h => isMark_other h _ (by decide)
  | comparison plain operand => exact opens_comparison operand named

theorem opens_conjunction (h : Conjunction source n ts e) (named : ∀ t ∈ ts, t.Named) :
    Opens ts := by
  cases h with
  | single only => exact opens_unary only named
  | several first =>
    exact (opens_unary first fun t member => named t (List.mem_append_left _ member)).append

theorem opens_disjunction (h : Disjunction source n ts e) (named : ∀ t ∈ ts, t.Named) :
    Opens ts := by
  cases h with
  | single only => exact opens_conjunction only named
  | several first =>
    exact (opens_conjunction first fun t member => named t (List.mem_append_left _ member)).append

theorem opens_argumentList {es : List Expr} (h : ArgumentList source n ts es)
    (named : ∀ t ∈ ts, t.Named) : Opens ts := by
  cases h with
  | last only => exact opens_disjunction only named
  | more first =>
    exact (opens_disjunction first fun t member => named t (List.mem_append_left _ member)).append

theorem goOn_steps {ss : List Step} {rest : List Token} (h : Steps source n ts ss)
    (ends : GoOn afterPrimary rest) : GoOn ("." :: "[" :: afterPrimary) (ts ++ rest) := by
  cases h with
  | none => exact ends.mono (by simp)
  | field dot => exact .cons dot (by decide)
  | call dot => exact .cons dot (by decide)
  | index dot => exact .cons dot (by decide)
  | join dot => exact .cons dot (by decide)
  | indices dot => exact .cons dot (by decide)
  | key left => exact .cons left (by decide)

end First

/-! ### Steps after a dot -/

section Dotted

variable {name number : Token} {tokens ts : List Token}

theorem dottedStep_field (kind : name.kind = .name)
    (ends : GoOn ("." :: "[" :: afterPrimary) tokens) :
    dottedStep inner (name :: tokens) = .ok (([.field name.text], name.stop), tokens) := by
  unfold dottedStep
  simp only [kind]
  cases tokens with
  | nil => rfl
  | cons t rest =>
    have open_mark := ends.isMark "(" (by decide)
    simp [open_mark]

theorem dottedStep_call {opening : Token} {more : List Token} {args : List Expr} {stop : Nat}
    (kind : name.kind = .name) (left : opening.isMark "(")
    (inside : callArguments inner tokens = .ok ((args, stop), more)) :
    dottedStep inner (name :: opening :: tokens) = .ok (([.call name.text args], stop), more) := by
  unfold dottedStep
  simp only [kind, left, if_true]
  exact bind_eq_ok.mpr ⟨_, inside, rfl⟩

theorem dottedStep_number (kind : number.kind = .number) :
    dottedStep inner (number :: tokens) = numericStep number tokens := by
  unfold dottedStep
  simp only [kind]

theorem numericStep_indices {ss : List Step} (read : indexSteps number = .ok ss)
    (ends : GoOn ("." :: "[" :: afterPrimary) tokens) :
    numericStep number tokens = .ok ((ss, number.stop), tokens) := by
  have indices : ((indexSteps number).map fun ss => ((ss, number.stop), tokens)) =
      .ok ((ss, number.stop), tokens) := map_eq_ok.mpr ⟨ss, read, rfl⟩
  cases tokens with
  | nil => exact indices
  | cons t rest =>
    have plus := ends.isMark "+" (by decide)
    rw [numericStep, plus, Bool.false_and]
    exact indices

/-- A number with two runs of digits stays two indices whatever stands behind it. -/
theorem numericStep_pieces {front back : Text} {i j : Int}
    (pieces : number.text.splitOn '.' = [front, back]) (first : Numeral.readInt front = some i)
    (second : Numeral.readInt back = some j) (ends : GoOn ("." :: "[" :: afterPrimary) tokens) :
    numericStep number tokens = .ok (([indexAt i, indexAt j], number.stop), tokens) := by
  refine numericStep_indices (indexSteps_eq_ok.mpr ⟨[i, j], ?_, rfl⟩) ends
  rw [pieces, List.map_cons, first, List.map_singleton, second]
  rfl

theorem numericStep_whole {k : Int} (whole : '.' ∉ number.text)
    (value : Numeral.readInt number.text = some k)
    (ends : GoOn ("." :: "[" :: afterPrimary) tokens) :
    numericStep number tokens = .ok (([indexAt k], number.stop), tokens) := by
  refine numericStep_indices (indexSteps_eq_ok.mpr ⟨[k], ?_, rfl⟩) ends
  rw [splitOn_whole whole, List.map_singleton, value]
  rfl

theorem numericStep_join {k : Int} {plus : Token} (whole : '.' ∉ number.text)
    (value : Numeral.readInt number.text = some k) (sign : plus.isMark "+") :
    numericStep number (plus :: tokens) = .ok (([.joinFrom k.toNat], plus.stop), tokens) := by
  have joins : (plus.isMark "+" && !number.text.contains '.') = true := by
    simp [sign, whole]
  rw [numericStep]
  simp only [joins, if_true, value]

theorem callArguments_none {closing : Token} (right : closing.isMark ")") :
    callArguments inner (closing :: tokens) = .ok (([], closing.stop), tokens) :=
  if_pos right

theorem callArguments_some {x : List Expr × Nat} {more : List Token} (opens : Opens tokens)
    (read : arguments inner (tokens.length + 1) tokens = .ok (x, more)) :
    callArguments inner tokens = .ok (x, more) := by
  obtain ⟨t, rest, rfl, other⟩ := opens
  rw [callArguments, other]
  exact read

theorem arguments_last {closing : Token} {e : Expr} (inside : inner tokens = .ok (e, closing :: ts))
    (right : closing.isMark ")") (fuel : Nat) :
    arguments inner (fuel + 1) tokens = .ok (([e], closing.stop), ts) := by
  rw [arguments, inside]
  exact if_pos right

theorem arguments_more {comma : Token} {e : Expr} {more : List Token} {es : List Expr}
    {stop fuel : Nat} (inside : inner tokens = .ok (e, comma :: more)) (mark : comma.isMark ",")
    (others : arguments inner fuel more = .ok ((es, stop), ts)) :
    arguments inner (fuel + 1) tokens = .ok ((e :: es, stop), ts) := by
  have open_list := isMark_other mark ")" (by decide)
  have next : expect "," (comma :: more) = .ok (comma, more) := if_pos mark
  rw [arguments, inside]
  change (if comma.isMark ")" = true then _ else _) = _
  rw [if_neg (by rw [open_list]; exact Bool.false_ne_true)]
  exact bind_eq_ok.mpr ⟨_, next, bind_eq_ok.mpr ⟨_, others, rfl⟩⟩

end Dotted

/-! ### Primaries and what is made of them -/

section Primaries

variable {t : Token} {tokens : List Token}

theorem primary_number {s : Scalar} (kind : t.kind = .number) (value : t.numberValue = .ok s) :
    primary source inner (t :: tokens) = .ok (.literal (.scalar s), tokens) := by
  unfold primary
  simp only [kind]
  exact map_eq_ok.mpr ⟨s, by rw [numberLiteral, value]; rfl, rfl⟩

theorem primary_negative {s : Scalar} {minus : Token} (op : minus.kind = .op)
    (mark : minus.isMark "-") (kind : t.kind = .number) (value : t.numberValue = .ok s) :
    primary source inner (minus :: t :: tokens) =
      .ok (.literal (.scalar (negated s)), tokens) := by
  unfold primary
  simp only [op, mark, kind, if_true]
  exact map_eq_ok.mpr ⟨s, by rw [numberLiteral, value]; rfl, rfl⟩

theorem primary_string (kind : t.kind = .string) :
    primary source inner (t :: tokens) = .ok (.literal (.text t.stringValue), tokens) := by
  unfold primary
  simp only [kind]

theorem primary_word {s : Scalar} (kind : t.kind = .name)
    (value : literalWords.lookup t.text = some s) :
    primary source inner (t :: tokens) = .ok (.literal (.scalar s), tokens) := by
  unfold primary
  simp only [kind, value]

theorem primary_group {closing : Token} {e : Expr} {rest : List Token} (op : t.kind = .op)
    (left : t.isMark "(") (inside : inner tokens = .ok (e, closing :: rest))
    (right : closing.isMark ")") : primary source inner (t :: tokens) = .ok (e, rest) := by
  have minus := isMark_other left "-" (by decide)
  have closed : expect ")" (closing :: rest) = .ok (closing, rest) := if_pos right
  unfold primary
  simp only [op, minus, left, if_true, Bool.false_eq_true, if_false]
  exact bind_eq_ok.mpr ⟨_, inside, bind_eq_ok.mpr ⟨_, closed, rfl⟩⟩

theorem primary_path {ss : List Step} {stop : Nat} {rest : List Token} (kind : t.kind = .name)
    (free : literalWords.lookup t.text = none)
    (read : steps inner (tokens.length + 1) t.stop tokens = .ok ((ss, stop), rest)) :
    primary source inner (t :: tokens) =
      .ok (.path t.text ss (source t.position stop), rest) := by
  unfold primary
  simp only [kind, free]
  refine map_eq_ok.mpr ⟨(⟨t.text, ss, source t.position stop⟩, rest), ?_, rfl⟩
  rw [path, if_pos kind]
  exact bind_eq_ok.mpr ⟨_, read, rfl⟩

theorem comparison_primary {e : Expr} {rest : List Token}
    (only : primary source inner tokens = .ok (e, rest)) (ends : GoOn afterUnary rest) :
    comparison source inner tokens = .ok (e, rest) := by
  refine bind_eq_ok.mpr ⟨_, only, ?_⟩
  cases rest with
  | nil => rfl
  | cons t more =>
    have others : ∀ mark ∈ afterUnary, Relation.ofSymbol? mark.toList = none := by decide
    obtain ⟨mark, member, text⟩ := ends t rfl
    have relation : (if t.kind = .op then Relation.ofSymbol? t.text else none) = none := by
      rw [text, others mark member, ite_self]
    simp only [relation]
    rfl

theorem comparison_relation {r : Relation} {left right : Expr} {more rest : List Token}
    (first : primary source inner tokens = .ok (left, t :: more)) (op : t.kind = .op)
    (symbol : Relation.ofSymbol? t.text = some r)
    (second : primary source inner more = .ok (right, rest)) :
    comparison source inner tokens = .ok (.compare r left right, rest) := by
  refine bind_eq_ok.mpr ⟨_, first, ?_⟩
  simp only [op, symbol, if_true]
  exact bind_eq_ok.mpr ⟨_, second, rfl⟩

theorem goOn_relation {r : Relation} {rest : List Token}
    (symbol : Relation.ofSymbol? t.text = some r) : GoOn afterPrimary (t :: rest) := by
  rintro _ ⟨⟩
  refine ⟨r.symbol, ?_, Relation.eq_of_ofSymbol? symbol⟩
  cases r <;> decide

end Primaries

/-! ### Levels -/

section Levels

variable {n : Nat} {t : Token} {tokens rest : List Token} {e : Expr}

theorem unary_negation (not : t.IsNot) (operand : unary source n tokens = .ok (e, rest)) :
    unary source (n + 1) (t :: tokens) = .ok (.not e, rest) := by
  rw [unary, unaryWith, if_pos (isNot_iff.mpr not)]
  exact map_eq_ok.mpr ⟨_, operand, rfl⟩

theorem unary_comparison (plain : ¬ t.IsNot)
    (operand : comparison source (disjunction source n) (t :: tokens) = .ok (e, rest)) :
    unary source n (t :: tokens) = .ok (e, rest) := by
  have other := mt isNot_iff.mp plain
  cases n with
  | zero =>
    rw [unary, unaryWith, if_neg other]
    exact operand
  | succ n =>
    rw [unary, unaryWith, if_neg other]
    exact operand

theorem joined_several (join : List Expr → Expr) (e : Expr) {es : List Expr} (several : es ≠ []) :
    joined join (e :: es) = join (e :: es) := by
  cases es with
  | nil => exact absurd rfl several
  | cons e' es => rfl

theorem conjunctionOf_eq {es : List Expr} {p : Parse Expr}
    (read : separated p (fun t => t.isMark "&&" || t.isMark "and") (tokens.length + 1) tokens =
      .ok (es, rest)) : conjunctionOf p tokens = .ok (joined .all es, rest) :=
  map_eq_ok.mpr ⟨_, read, rfl⟩

theorem disjunction_eq {es : List Expr}
    (read : separated (conjunctionOf (unary source n)) (fun t => t.isMark "||" || t.isMark "or")
      (tokens.length + 1) tokens = .ok (es, rest)) :
    disjunction source (n + 1) tokens = .ok (joined .any es, rest) :=
  map_eq_ok.mpr ⟨_, read, rfl⟩

theorem not_or (ends : GoOn closers rest) :
    ∀ t ∈ rest.head?, (t.isMark "||" || t.isMark "or") = false := by
  cases rest with
  | nil => exact nofun
  | cons t rest =>
    rintro _ ⟨⟩
    rw [ends.isMark "||" (by decide), ends.isMark "or" (by decide)]
    rfl

theorem not_and (ends : GoOn afterConjunction rest) :
    ∀ t ∈ rest.head?, (t.isMark "&&" || t.isMark "and") = false := by
  cases rest with
  | nil => exact nofun
  | cons t rest =>
    rintro _ ⟨⟩
    rw [ends.isMark "&&" (by decide), ends.isMark "and" (by decide)]
    rfl

theorem disjuncts_ne_nil {ts : List Token} {es : List Expr} (h : Disjuncts source n ts es) :
    es ≠ [] := by
  cases h <;> exact List.cons_ne_nil _ _

theorem conjuncts_ne_nil {ts : List Token} {es : List Expr} (h : Conjuncts source n ts es) :
    es ≠ [] := by
  cases h <;> exact List.cons_ne_nil _ _

end Levels

mutual

theorem reads_disjunction {n : Nat} {ts rest : List Token} {e : Expr} :
    Disjunction source n ts e → (∀ t ∈ ts, t.Named) → GoOn closers rest →
      disjunction source n (ts ++ rest) = .ok (e, rest)
  | .single only, named, ends => by
    have read := reads_conjunction only named (ends.mono (by simp [afterConjunction]))
    exact disjunction_eq (separated_last read (not_or ends) _)
  | .several first or others, named, ends => by
    obtain ⟨named_first, named_rest⟩ := List.forall_mem_append.mp named
    have read := reads_disjuncts others (List.forall_mem_cons.mp named_rest).2 ends
    rw [← joined_several .any _ (disjuncts_ne_nil others)]
    exact disjunction_eq (separated_more (reads_conjunction first named_first or.goOn)
      (isOr_iff.mpr or) (read _ (by simp; omega)))

theorem reads_disjuncts {n : Nat} {ts rest : List Token} {es : List Expr} :
    Disjuncts source n ts es → (∀ t ∈ ts, t.Named) → GoOn closers rest →
      ∀ fuel, ts.length < fuel →
      separated (conjunctionOf (unary source n)) (fun t => t.isMark "||" || t.isMark "or") fuel
        (ts ++ rest) = .ok (es, rest)
  | .last only, named, ends, fuel + 1, enough => by
    have read := reads_conjunction only named (ends.mono (by simp [afterConjunction]))
    exact separated_last read (not_or ends) _
  | .more first or others, named, ends, fuel + 1, enough => by
    obtain ⟨named_first, named_rest⟩ := List.forall_mem_append.mp named
    have read := reads_disjuncts others (List.forall_mem_cons.mp named_rest).2 ends
    exact separated_more (reads_conjunction first named_first or.goOn) (isOr_iff.mpr or)
      (read _ (by simp at enough; omega))

theorem reads_conjunction {n : Nat} {ts rest : List Token} {e : Expr} :
    Conjunction source n ts e → (∀ t ∈ ts, t.Named) → GoOn afterConjunction rest →
      conjunctionOf (unary source n) (ts ++ rest) = .ok (e, rest)
  | .single only, named, ends => by
    have read := reads_unary only named (ends.mono (by simp [afterUnary]))
    exact conjunctionOf_eq (separated_last read (not_and ends) _)
  | .several first and others, named, ends => by
    obtain ⟨named_first, named_rest⟩ := List.forall_mem_append.mp named
    have read := reads_conjuncts others (List.forall_mem_cons.mp named_rest).2 ends
    rw [← joined_several .all _ (conjuncts_ne_nil others)]
    exact conjunctionOf_eq (separated_more (reads_unary first named_first and.goOn)
      (isAnd_iff.mpr and) (read _ (by simp; omega)))

theorem reads_conjuncts {n : Nat} {ts rest : List Token} {es : List Expr} :
    Conjuncts source n ts es → (∀ t ∈ ts, t.Named) → GoOn afterConjunction rest →
      ∀ fuel, ts.length < fuel →
      separated (unary source n) (fun t => t.isMark "&&" || t.isMark "and") fuel (ts ++ rest) =
        .ok (es, rest)
  | .last only, named, ends, fuel + 1, enough => by
    have read := reads_unary only named (ends.mono (by simp [afterUnary]))
    exact separated_last read (not_and ends) _
  | .more first and others, named, ends, fuel + 1, enough => by
    obtain ⟨named_first, named_rest⟩ := List.forall_mem_append.mp named
    have read := reads_conjuncts others (List.forall_mem_cons.mp named_rest).2 ends
    exact separated_more (reads_unary first named_first and.goOn) (isAnd_iff.mpr and)
      (read _ (by simp at enough; omega))

theorem reads_unary {n : Nat} {ts rest : List Token} {e : Expr} :
    Unary source n ts e → (∀ t ∈ ts, t.Named) → GoOn afterUnary rest →
      unary source n (ts ++ rest) = .ok (e, rest)
  | .negation not operand, named, ends =>
    unary_negation not (reads_unary operand (List.forall_mem_cons.mp named).2 ends)
  | .comparison plain operand, named, ends =>
    unary_comparison plain (reads_comparison operand named ends)

theorem reads_comparison {n : Nat} {ts rest : List Token} {e : Expr} :
    Comparison source n ts e → (∀ t ∈ ts, t.Named) → GoOn afterUnary rest →
      comparison source (disjunction source n) (ts ++ rest) = .ok (e, rest)
  | .primary only, named, ends => by
    have read := reads_primary only named (ends.mono (by simp [afterPrimary]))
    exact comparison_primary read ends
  | .relation first op symbol second, named, ends => by
    obtain ⟨named_first, named_rest⟩ := List.forall_mem_append.mp named
    have read := reads_primary second (List.forall_mem_cons.mp named_rest).2
      (ends.mono (by simp [afterPrimary]))
    rw [List.append_assoc, List.cons_append]
    -- A relation is no mark that a path goes on with, so the first primary stops in front of it.
    exact comparison_relation (reads_primary first named_first (goOn_relation symbol)) op symbol
      read

theorem reads_primary {n : Nat} {ts rest : List Token} {e : Expr} :
    Primary source n ts e → (∀ t ∈ ts, t.Named) → GoOn afterPrimary rest →
      primary source (disjunction source n) (ts ++ rest) = .ok (e, rest)
  | .number kind value, _, _ => primary_number kind value
  | .negative op mark kind value, _, _ => primary_negative op mark kind value
  | .string kind, _, _ => primary_string kind
  | .word kind value, _, _ => primary_word kind value
  | .group op left inside right, named, _ => by
    obtain ⟨named_inside, _⟩ := List.forall_mem_append.mp (List.forall_mem_cons.mp named).2
    rw [List.cons_append, List.append_assoc]
    exact primary_group op left
      (reads_disjunction inside named_inside (.cons right (by decide))) right
  | .path kind free others, named, ends => by
    have read := reads_steps others (List.forall_mem_cons.mp named).2 ends
    rw [List.cons_append]
    exact primary_path kind free (read _ _ (by rw [List.length_append]; omega))

theorem reads_steps {n : Nat} {ts rest : List Token} {ss : List Step} :
    Steps source n ts ss → (∀ t ∈ ts, t.Named) → GoOn afterPrimary rest →
      ∀ fuel stop, ts.length < fuel →
      steps (disjunction source n) fuel stop (ts ++ rest) = .ok ((ss, lastStop stop ts), rest)
  | .none, _, ends, fuel, stop, _ => steps_none fuel stop ends
  | .field dot kind others, named, ends, fuel + 1, stop, enough => by
    have read := reads_steps others (fun t member => named t (by simp [member])) ends fuel
    rw [lastStop_cons, lastStop_cons]
    exact steps_dotted dot (dottedStep_field kind (goOn_steps others ends))
      (read _ (by simp at enough; omega))
  | .call dot kind left inside right others, named, ends, fuel + 1, stop, enough => by
    have read := reads_steps others (fun t member => named t (by simp [member])) ends fuel
    rw [lastStop_cons, lastStop_cons, lastStop_cons, lastStop_append, lastStop_cons]
    simp only [List.cons_append, List.append_assoc]
    exact steps_dotted dot (dottedStep_call kind left
      (reads_call inside (fun t member => named t (by simp [member])) right))
      (read _ (by simp at enough; omega))
  | .index dot kind whole value others, named, ends, fuel + 1, stop, enough => by
    have read := reads_steps others (fun t member => named t (by simp [member])) ends fuel
    rw [lastStop_cons, lastStop_cons]
    -- What follows must not begin with a plus, or the index would be read as a join.
    exact steps_dotted dot ((dottedStep_number kind).trans
      (numericStep_whole whole value (goOn_steps others ends)))
      (read _ (by simp at enough; omega))
  | .join dot kind whole value sign others, named, ends, fuel + 1, stop, enough => by
    have read := reads_steps others (fun t member => named t (by simp [member])) ends fuel
    rw [lastStop_cons, lastStop_cons, lastStop_cons]
    exact steps_dotted dot ((dottedStep_number kind).trans (numericStep_join whole value sign))
      (read _ (by simp at enough; omega))
  | .indices dot kind pieces first second others, named, ends, fuel + 1, stop, enough => by
    have read := reads_steps others (fun t member => named t (by simp [member])) ends fuel
    rw [lastStop_cons, lastStop_cons]
    exact steps_dotted dot ((dottedStep_number kind).trans
      (numericStep_pieces pieces first second (goOn_steps others ends)))
      (read _ (by simp at enough; omega))
  | .key left key right others, named, ends, fuel + 1, stop, enough => by
    have read := reads_steps others (fun t member => named t (by simp [member])) ends fuel
    rw [lastStop_cons, lastStop_append, lastStop_cons]
    simp only [List.cons_append, List.append_assoc]
    exact steps_key left (reads_disjunction key (fun t member => named t (by simp [member]))
      (.cons right (by decide))) right (read _ (by simp at enough; omega))

theorem reads_call {n : Nat} {closing : Token} {ts rest : List Token} {es : List Expr} :
    Arguments source n ts es → (∀ t ∈ ts, t.Named) → closing.isMark ")" →
      callArguments (disjunction source n) (ts ++ closing :: rest) =
        .ok ((es, closing.stop), rest)
  | .none, _, right => callArguments_none right
  | .some list, named, right =>
    callArguments_some (opens_argumentList list named).append
      (reads_arguments list named right _ (by simp only [List.length_append]; omega))

theorem reads_arguments {n : Nat} {closing : Token} {ts rest : List Token} {es : List Expr} :
    ArgumentList source n ts es → (∀ t ∈ ts, t.Named) → closing.isMark ")" →
      ∀ fuel, ts.length < fuel →
      arguments (disjunction source n) fuel (ts ++ closing :: rest) =
        .ok ((es, closing.stop), rest)
  | .last only, named, right, fuel + 1, enough => by
    exact arguments_last (reads_disjunction only named (.cons right (by decide))) right fuel
  | .more first comma others, named, right, fuel + 1, enough => by
    obtain ⟨named_first, named_rest⟩ := List.forall_mem_append.mp named
    rw [List.append_assoc, List.cons_append]
    exact arguments_more (reads_disjunction first named_first (.cons comma (by decide))) comma
      (reads_arguments others (List.forall_mem_cons.mp named_rest).2 right _
        (by simp at enough; omega))

end

end Parse

/-- A text is read as an expression exactly when its tokens derive that expression with at most
sixty-four levels open at once. Any other text gives an evaluation error, unless one of its numbers
has too many digits for an integer. -/
theorem Expr.parse_grammatical (t : Text) :
    (∀ e, Expr.parse t = .ok e ↔ ∃ tokens, Token.scan t = .ok tokens ∧
      Grammar.Disjunction (Text.slice t) 64 tokens e) ∧
    ((∃ e, Expr.parse t = .ok e) ∨ (∃ e, Expr.parse t = .error (.eval e)) ∨
      Expr.parse t = .error (.crash .tooManyDigits) ∧ t.Overlong) := by
  refine ⟨fun e => ⟨fun read => ?_, ?_⟩, ?_⟩
  · obtain ⟨tokens, scanned, read⟩ := bind_eq_ok.mp read
    obtain ⟨⟨e, rest⟩, taken, finished⟩ := bind_eq_ok.mp read
    cases scan : Token.scan t with
    | error e =>
      rw [scan] at scanned
      cases scanned
    | ok found =>
      rw [scan] at scanned
      cases scanned
      have shaped : ∀ x ∈ tokens, x.Shaped := Token.shaped_scanAt scan
      obtain ⟨ts, rfl, derived⟩ := Parse.derives_disjunction (Text.slice t) 64 shaped taken
      cases rest with
      | nil =>
        cases finished
        exact ⟨_, rfl, by simpa using derived⟩
      | cons x rest => cases finished
  · rintro ⟨tokens, scanned, derived⟩
    have named : ∀ x ∈ tokens, x.Named := Token.named_scanAt scanned
    have read := Parse.reads_disjunction derived named .nil
    rw [List.append_nil] at read
    rw [Expr.parse, scanned]
    exact bind_eq_ok.mpr ⟨tokens, rfl, bind_eq_ok.mpr ⟨_, read, rfl⟩⟩
  · have outcome := Expr.parse_yields t
    rcases read : Expr.parse t with (e | c) | e <;> rw [read] at outcome
    · exact .inr (.inl ⟨e, rfl⟩)
    · obtain ⟨rfl, long⟩ := outcome
      exact .inr (.inr ⟨rfl, long⟩)
    · exact .inl ⟨e, rfl⟩

end ChatCommands
