import ChatCommands.Expr.Error

/-!
The tokens of the condition language, with the positions where they start.

At each place the longest lexeme of the first kind that fits is taken: white space, a number, a
string in either quotation mark, a name, an operator.
-/

namespace ChatCommands

inductive TokenKind where
  | number
  | string
  | name
  | op
deriving DecidableEq

structure Token where
  kind : TokenKind
  text : Text
  position : Nat
deriving DecidableEq

namespace Token

def stop (t : Token) : Nat :=
  t.position + t.text.length

/-- Whether a token is this operator or word. -/
def isMark (t : Token) (mark : String) : Bool :=
  (t.kind == .op || t.kind == .name) && t.text == mark.toList

/-- The operators, longer ones before their beginnings. -/
def operators : List Text :=
  ["===", "!==", "==", "!=", "<=", ">=", "&&", "||", "<", ">", "!", "(", ")", "[", "]", ".", ",",
    "+", "-"].map String.toList

def isNameStart (c : Char) : Bool :=
  c.isAlpha || c == '_' || c == '$'

def isNameChar (c : Char) : Bool :=
  isNameStart c || c.isDigit

/-- How many characters follow the opening mark of a string, its closing mark included. A
backslash takes the next character with it, unless that is a line break. -/
def stringLength (mark : Char) : Text → Option Nat
  | [] => none
  | c :: rest =>
    if c = mark then some 1
    else if c = '\\' then
      match rest with
      | [] => none
      | d :: more => if d = '\n' then none else (stringLength mark more).map (· + 2)
    else (stringLength mark rest).map (· + 1)

/-- How many characters follow the first digit of a number. -/
def numberLength (rest : Text) : Nat :=
  let whole := (rest.takeWhile Text.isDigit).length
  match rest.drop whole with
  | '.' :: fraction =>
    let digits := (fraction.takeWhile Text.isDigit).length
    if digits = 0 then whole else whole + 1 + digits
  | _ => whole

/-- The kind of the lexeme that starts with `c`, none for white space, and how many characters of
`rest` belong to it. -/
def lexeme (c : Char) (rest : Text) : Option (Option TokenKind × Nat) :=
  if Text.isBlank c then some (none, (rest.takeWhile Text.isBlank).length)
  else if Text.isDigit c then some (some .number, numberLength rest)
  else if c = '\x27' ∨ c = '\x22' then
    (stringLength c rest).map fun n => (some .string, n)
  else if isNameStart c then some (some .name, (rest.takeWhile isNameChar).length)
  else
    (operators.find? fun o => o.isPrefixOf (c :: rest)).map fun o => (some .op, o.length - 1)

/-- The tokens of a text whose first character stands at `position`. -/
def scanAt (position : Nat) (t : Text) : Except EvalError (List Token) :=
  match t with
  | [] => .ok []
  | c :: rest =>
    match lexeme c rest with
    | none => .error (.unexpectedCharacter c position)
    | some (kind, n) =>
      (scanAt (position + (n + 1)) (rest.drop n)).map fun tokens =>
        match kind with
        | none => tokens
        | some k => ⟨k, c :: rest.take n, position⟩ :: tokens
termination_by t.length
decreasing_by simp only [List.length_drop, List.length_cons]; omega

def scan (t : Text) : Except EvalError (List Token) :=
  scanAt 0 t

/-- The text without the backslash in front of each character it escapes. -/
def dropEscapes : Text → Text
  | [] => []
  | [c] => [c]
  | c :: d :: rest =>
    if c = '\\' ∧ d ≠ '\n' then d :: dropEscapes rest else c :: dropEscapes (d :: rest)

def stringValue (t : Token) : Text :=
  dropEscapes ((t.text.drop 1).dropLast)

def numberValue (t : Token) : Except Crash Scalar :=
  if '.' ∈ t.text then
    match Numeral.readFloat t.text with
    | some x => .ok (.float x)
    | none => .error .notANumeral
  else
    match Numeral.readInt t.text with
    | some n => .ok (.int n)
    | none => .error .tooManyDigits

end Token

end ChatCommands
