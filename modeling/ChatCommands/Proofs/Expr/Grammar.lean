import ChatCommands.Expr.Parser

/-!
The grammar of conditions, as a relation between tokens and the expression they write.

`Disjunction n` holds of the tokens of a disjunction in which at most `n` disjunctions and
negations are open at once, itself included. An exclamation mark or `not` in front of a unary is
always the operator, and the words for the literals are never the root of a path. A fraction after
a dot is two indices.
-/

namespace ChatCommands

namespace Token

def IsOr (t : Token) : Prop := t.isMark "||" ∨ t.isMark "or"

def IsAnd (t : Token) : Prop := t.isMark "&&" ∨ t.isMark "and"

def IsNot (t : Token) : Prop := t.isMark "!" ∨ t.isMark "not"

/-- Where the last of some tokens ends, or `stop` where there are none. -/
def lastStop (stop : Nat) (ts : List Token) : Nat :=
  (ts.getLast?.map Token.stop).getD stop

end Token

namespace Grammar

/-- The key of a step that is written as an integer. -/
def indexAt (k : Int) : Step :=
  .index (.literal (.scalar (.int k)))

mutual

/-- A disjunction, `conjunction (("||" | "or") conjunction)*`, which takes a level. -/
inductive Disjunction (source : Nat → Nat → Text) : Nat → List Token → Expr → Prop
  | single {n ts e} (only : Conjunction source n ts e) : Disjunction source (n + 1) ts e
  | several {n ts e us es} {mark : Token} (first : Conjunction source n ts e) (or : mark.IsOr)
      (others : Disjuncts source n us es) :
      Disjunction source (n + 1) (ts ++ mark :: us) (.any (e :: es))

/-- Conjunctions with `||` or `or` between each two. -/
inductive Disjuncts (source : Nat → Nat → Text) : Nat → List Token → List Expr → Prop
  | last {n ts e} (only : Conjunction source n ts e) : Disjuncts source n ts [e]
  | more {n ts e us es} {mark : Token} (first : Conjunction source n ts e) (or : mark.IsOr)
      (others : Disjuncts source n us es) : Disjuncts source n (ts ++ mark :: us) (e :: es)

/-- A conjunction, `unary (("&&" | "and") unary)*`. -/
inductive Conjunction (source : Nat → Nat → Text) : Nat → List Token → Expr → Prop
  | single {n ts e} (only : Unary source n ts e) : Conjunction source n ts e
  | several {n ts e us es} {mark : Token} (first : Unary source n ts e) (and : mark.IsAnd)
      (others : Conjuncts source n us es) :
      Conjunction source n (ts ++ mark :: us) (.all (e :: es))

/-- Unaries with `&&` or `and` between each two. -/
inductive Conjuncts (source : Nat → Nat → Text) : Nat → List Token → List Expr → Prop
  | last {n ts e} (only : Unary source n ts e) : Conjuncts source n ts [e]
  | more {n ts e us es} {mark : Token} (first : Unary source n ts e) (and : mark.IsAnd)
      (others : Conjuncts source n us es) : Conjuncts source n (ts ++ mark :: us) (e :: es)

/-- A unary, `("!" | "not") unary | comparison`, where a negation takes a level. -/
inductive Unary (source : Nat → Nat → Text) : Nat → List Token → Expr → Prop
  | negation {n ts e} {mark : Token} (not : mark.IsNot) (operand : Unary source n ts e) :
      Unary source (n + 1) (mark :: ts) (.not e)
  | comparison {n t ts e} (plain : ¬ t.IsNot) (operand : Comparison source n (t :: ts) e) :
      Unary source n (t :: ts) e

/-- A comparison, `primary (relation primary)?`. -/
inductive Comparison (source : Nat → Nat → Text) : Nat → List Token → Expr → Prop
  | primary {n ts e} (only : Primary source n ts e) : Comparison source n ts e
  | relation {n ts left us right r} {mark : Token} (first : Primary source n ts left)
      (op : mark.kind = .op) (symbol : Relation.ofSymbol? mark.text = some r)
      (second : Primary source n us right) :
      Comparison source n (ts ++ mark :: us) (.compare r left right)

/-- A primary, `number | "-" number | string | word | "(" disjunction ")" | name steps`. A path
keeps its text, from its root to the end of its last token. -/
inductive Primary (source : Nat → Nat → Text) : Nat → List Token → Expr → Prop
  | number {n s} {t : Token} (kind : t.kind = .number) (value : t.numberValue = .ok s) :
      Primary source n [t] (.literal (.scalar s))
  | negative {n s} {minus t : Token} (op : minus.kind = .op) (mark : minus.isMark "-")
      (kind : t.kind = .number) (value : t.numberValue = .ok s) :
      Primary source n [minus, t] (.literal (.scalar (Parse.negated s)))
  | string {n} {t : Token} (kind : t.kind = .string) :
      Primary source n [t] (.literal (.text t.stringValue))
  | word {n s} {t : Token} (kind : t.kind = .name)
      (value : Parse.literalWords.lookup t.text = some s) :
      Primary source n [t] (.literal (.scalar s))
  | group {n ts e} {opening closing : Token} (op : opening.kind = .op) (left : opening.isMark "(")
      (inside : Disjunction source n ts e) (right : closing.isMark ")") :
      Primary source n (opening :: (ts ++ [closing])) e
  | path {n ts ss} {root : Token} (kind : root.kind = .name)
      (free : Parse.literalWords.lookup root.text = none) (steps : Steps source n ts ss) :
      Primary source n (root :: ts)
        (.path root.text ss (source root.position (Token.lastStop root.stop ts)))

/-- The steps of a path, `("." name ["(" arguments ")"] | "." number ["+"] | "[" disjunction "]")*`,
where a number with a point is two indices. -/
inductive Steps (source : Nat → Nat → Text) : Nat → List Token → List Step → Prop
  | none {n} : Steps source n [] []
  | field {n ts ss} {dot name : Token} (mark : dot.isMark ".") (kind : name.kind = .name)
      (others : Steps source n ts ss) :
      Steps source n (dot :: name :: ts) (.field name.text :: ss)
  | call {n args es ts ss} {dot name opening closing : Token} (mark : dot.isMark ".")
      (kind : name.kind = .name) (left : opening.isMark "(") (inside : Arguments source n args es)
      (right : closing.isMark ")") (others : Steps source n ts ss) :
      Steps source n (dot :: name :: opening :: (args ++ closing :: ts)) (.call name.text es :: ss)
  | index {n k ts ss} {dot number : Token} (mark : dot.isMark ".") (kind : number.kind = .number)
      (whole : '.' ∉ number.text) (value : Numeral.readInt number.text = some k)
      (others : Steps source n ts ss) :
      Steps source n (dot :: number :: ts) (indexAt k :: ss)
  | join {n k ts ss} {dot number plus : Token} (mark : dot.isMark ".")
      (kind : number.kind = .number) (whole : '.' ∉ number.text)
      (value : Numeral.readInt number.text = some k) (sign : plus.isMark "+")
      (others : Steps source n ts ss) :
      Steps source n (dot :: number :: plus :: ts) (.joinFrom k.toNat :: ss)
  | indices {n i j ts ss} {front back : Text} {dot number : Token} (mark : dot.isMark ".")
      (kind : number.kind = .number) (pieces : number.text.splitOn '.' = [front, back])
      (first : Numeral.readInt front = some i) (second : Numeral.readInt back = some j)
      (others : Steps source n ts ss) :
      Steps source n (dot :: number :: ts) (indexAt i :: indexAt j :: ss)
  | key {n e inside ts ss} {opening closing : Token} (left : opening.isMark "[")
      (key : Disjunction source n inside e) (right : closing.isMark "]")
      (others : Steps source n ts ss) :
      Steps source n (opening :: (inside ++ closing :: ts)) (.index e :: ss)

/-- The arguments of a call, `[disjunction ("," disjunction)*]`. -/
inductive Arguments (source : Nat → Nat → Text) : Nat → List Token → List Expr → Prop
  | none {n} : Arguments source n [] []
  | some {n ts es} (list : ArgumentList source n ts es) : Arguments source n ts es

/-- Disjunctions with a comma between each two. -/
inductive ArgumentList (source : Nat → Nat → Text) : Nat → List Token → List Expr → Prop
  | last {n ts e} (only : Disjunction source n ts e) : ArgumentList source n ts [e]
  | more {n ts e us es} {comma : Token} (first : Disjunction source n ts e)
      (mark : comma.isMark ",") (others : ArgumentList source n us es) :
      ArgumentList source n (ts ++ comma :: us) (e :: es)

end

variable {source : Nat → Nat → Text} {n : Nat} {ts : List Token} {e : Expr}

theorem Primary.exists_cons (h : Primary source n ts e) : ∃ t us, ts = t :: us := by
  cases h <;> exact ⟨_, _, rfl⟩

theorem Comparison.exists_cons (h : Comparison source n ts e) : ∃ t us, ts = t :: us := by
  cases h with
  | primary only => exact only.exists_cons
  | relation first =>
    obtain ⟨t, us, rfl⟩ := first.exists_cons
    exact ⟨t, _, rfl⟩

end Grammar

end ChatCommands
