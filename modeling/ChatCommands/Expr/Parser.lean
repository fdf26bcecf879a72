import ChatCommands.Expr.Basic
import ChatCommands.Expr.Token

/-!
The grammar of conditions:

    disjunction := conjunction (("||" | "or") conjunction)*
    conjunction := unary (("&&" | "and") unary)*
    unary       := ("!" | "not") unary | comparison
    comparison  := primary (relation primary)?
    primary     := number | "-" number | string | word | "(" disjunction ")" | path
    path        := name ("." name arguments? | "." number "+"? | "[" disjunction "]")*

At most sixty-four disjunctions and negations may be open at once. The parser is a recursion on
the levels that are left: each disjunction or negation takes one.
-/

namespace ChatCommands

/-- Reads something from the start of the tokens and returns what is left. -/
abbrev Parse (α : Type) := List Token → Except Halt (α × List Token)

namespace Parse

/-- The most disjunctions and negations that may be open at once. -/
def maxNesting : Nat := 64

def fail (e : EvalError) : Except Halt α :=
  .error (.eval e)

def tooDeep : Parse α :=
  fun _ => fail .tooDeep

/-- Takes the given mark, which has to come next. -/
def expect (mark : String) : Parse Token
  | [] => fail (.expected mark.toList none)
  | t :: rest =>
    if t.isMark mark then .ok (t, rest) else fail (.expected mark.toList (some t.position))

/-- Items with a separator between each two. The fuel bounds the number of items. -/
def separated (item : Parse α) (isSeparator : Token → Bool) : Nat → Parse (List α)
  | 0, _ => fail .unexpectedEnd
  | fuel + 1, tokens => do
    let (first, rest) ← item tokens
    match rest with
    | [] => return ([first], [])
    | t :: more =>
      if isSeparator t then
        let (others, final) ← separated item isSeparator fuel more
        return (first :: others, final)
      else return ([first], rest)

/-- Arguments after an opening parenthesis, up to the closing one, with the position after it. -/
def arguments (inner : Parse Expr) : Nat → Parse (List Expr × Nat)
  | 0, _ => fail .unexpectedEnd
  | fuel + 1, tokens => do
    let (first, rest) ← inner tokens
    match rest with
    | [] => fail (.expected [','] none)
    | t :: more =>
      if t.isMark ")" then return (([first], t.stop), more)
      else
        let (_, more) ← expect "," rest
        let ((others, stop), final) ← arguments inner fuel more
        return ((first :: others, stop), final)

/-- The arguments of a call, of which there may be none. -/
def callArguments (inner : Parse Expr) : Parse (List Expr × Nat)
  | [] => arguments inner 1 []
  | t :: rest =>
    if t.isMark ")" then .ok (([], t.stop), rest)
    else arguments inner (rest.length + 2) (t :: rest)

/-- The indices that a numeric step stands for, one for each run of digits. -/
def indexSteps (t : Token) : Except Halt (List Step) :=
  (t.text.splitOn '.').mapM fun piece =>
    match Numeral.readInt piece with
    | some n => .ok (.index (.literal (.scalar (.int n))))
    | none => .error (.crash .tooManyDigits)

/-- The steps after a dot and a number, with the position after them. A plus after a single run
of digits joins the items from there on. -/
def numericStep (t : Token) (rest : List Token) :
    Except Halt ((List Step × Nat) × List Token) :=
  let indices := (indexSteps t).map fun steps => ((steps, t.stop), rest)
  match rest with
  | [] => indices
  | plus :: more =>
    if plus.isMark "+" && !t.text.contains '.' then
      match Numeral.readInt t.text with
      | some n => .ok (([.joinFrom n.toNat], plus.stop), more)
      | none => .error (.crash .tooManyDigits)
    else indices

/-- What follows a dot: a field, a call, or a number. -/
def dottedStep (inner : Parse Expr) : Parse (List Step × Nat)
  | [] => fail .expectedName
  | t :: rest =>
    match t.kind with
    | .name =>
      match rest with
      | paren :: more =>
        if paren.isMark "(" then do
          let ((args, stop), final) ← callArguments inner more
          return (([.call t.text args], stop), final)
        else .ok (([.field t.text], t.stop), rest)
      | [] => .ok (([.field t.text], t.stop), rest)
    | .number => numericStep t rest
    | _ => fail (.unexpected t.text t.position)

/-- The steps of a path whose text so far ends at `stop`, with the position after them. The fuel
bounds their number. -/
def steps (inner : Parse Expr) : Nat → Nat → Parse (List Step × Nat)
  | 0, stop, tokens => .ok (([], stop), tokens)
  | _ + 1, stop, [] => .ok (([], stop), [])
  | fuel + 1, stop, t :: rest => do
    if t.isMark "." then
      let ((first, stop), more) ← dottedStep inner rest
      let ((others, stop), final) ← steps inner fuel stop more
      return ((first ++ others, stop), final)
    else if t.isMark "[" then
      let (key, more) ← inner rest
      let (close, more) ← expect "]" more
      let ((others, stop), final) ← steps inner fuel close.stop more
      return ((.index key :: others, stop), final)
    else return (([], stop), t :: rest)

/-- A path. `source` gives the text between two positions. -/
def path (source : Nat → Nat → Text) (inner : Parse Expr) : Parse Path
  | [] => fail .expectedVariable
  | t :: rest =>
    if t.kind = .name then do
      let ((steps, stop), final) ← steps inner (rest.length + 1) t.stop rest
      return (⟨t.text, steps, source t.position stop⟩, final)
    else fail .expectedVariable

def literalWords : List (Text × Scalar) := [
  ("true".toList, .bool true), ("false".toList, .bool false), ("null".toList, .null),
  ("undefined".toList, .null)]

def numberLiteral (t : Token) : Except Halt Scalar :=
  t.numberValue.mapError .crash

def negated : Scalar → Scalar
  | .int n => .int (-n)
  | .float x => .float x.neg
  | s => s

def primary (source : Nat → Nat → Text) (inner : Parse Expr) : Parse Expr
  | [] => fail .unexpectedEnd
  | t :: rest =>
    match t.kind with
    | .number => (numberLiteral t).map fun s => (.literal (.scalar s), rest)
    | .string => .ok (.literal (.text t.stringValue), rest)
    | .name =>
      match literalWords.lookup t.text with
      | some s => .ok (.literal (.scalar s), rest)
      | none => (path source inner (t :: rest)).map fun (p, final) => (p.expr, final)
    | .op =>
      if t.isMark "-" then
        match rest with
        | n :: more =>
          if n.kind = .number then
            (numberLiteral n).map fun s => (.literal (.scalar (negated s)), more)
          else fail (.expectedNumber t.position)
        | [] => fail (.expectedNumber t.position)
      else if t.isMark "(" then do
        let (e, more) ← inner rest
        let (_, final) ← expect ")" more
        return (e, final)
      else fail (.unexpected t.text t.position)

def comparison (source : Nat → Nat → Text) (inner : Parse Expr) : Parse Expr :=
  fun tokens => do
    let (left, rest) ← primary source inner tokens
    match rest with
    | [] => return (left, [])
    | t :: more =>
      match if t.kind = .op then Relation.ofSymbol? t.text else none with
      | some relation =>
        let (right, final) ← primary source inner more
        return (.compare relation left right, final)
      | none => return (left, rest)

/-- One operand by itself, several joined. -/
def joined (join : List Expr → Expr) : List Expr → Expr
  | [e] => e
  | es => join es

/-- A disjunction, once its level is taken, of conjunctions of what `unary` reads. -/
def disjunctionOf (unary : Parse Expr) : Parse Expr :=
  let conjunction : Parse Expr := fun tokens =>
    (separated unary (fun t => t.isMark "&&" || t.isMark "and") (tokens.length + 1) tokens).map
      fun (es, rest) => (joined .all es, rest)
  fun tokens =>
    (separated conjunction (fun t => t.isMark "||" || t.isMark "or") (tokens.length + 1) tokens).map
      fun (es, rest) => (joined .any es, rest)

/-- A unary, where `operand` reads what a negation negates and `inner` a nested disjunction. -/
def unaryWith (source : Nat → Nat → Text) (operand inner : Parse Expr) : Parse Expr
  | [] => comparison source inner []
  | t :: rest =>
    if t.isMark "!" || t.isMark "not" then
      (operand rest).map fun (e, final) => (.not e, final)
    else comparison source inner (t :: rest)

def unary (source : Nat → Nat → Text) : Nat → Parse Expr
  | 0 => unaryWith source tooDeep tooDeep
  | level + 1 => unaryWith source (unary source level) (disjunctionOf (unary source level))

def disjunction (source : Nat → Nat → Text) : Nat → Parse Expr
  | 0 => tooDeep
  | level + 1 => disjunctionOf (unary source level)

/-- What was read, if nothing is left. -/
def finish (r : α × List Token) : Except Halt α :=
  match r.2 with
  | [] => .ok r.1
  | t :: _ => fail (.unexpected t.text t.position)

end Parse

def Expr.parse (t : Text) : Except Halt Expr := do
  let tokens ← (Token.scan t).mapError .eval
  Parse.finish (← Parse.disjunction (Text.slice t) Parse.maxNesting tokens)

/-- The path that a text writes, white space around it aside. -/
def Path.parse (t : Text) : Except Halt Path := do
  let t := Text.strip t
  let tokens ← (Token.scan t).mapError .eval
  let source := Text.slice t
  Parse.finish (← Parse.path source (Parse.disjunction source Parse.maxNesting) tokens)

end ChatCommands
