import ChatCommands.Expr.Parser
import ChatCommands.Value.Access

/-!
Evaluation of conditions and paths in a scope.

The five fixed roots come from the snapshot and hide variables of the same name. A path whose
steps leave the values that exist is unresolved: for a path that is no error, inside a condition
it is. A condition that cannot be read or evaluated is false.
-/

namespace ChatCommands

/-- What paths can refer to: the snapshot, and the variables in the order of their creation. -/
structure Scope where
  snapshot : Snapshot
  bindings : List (Text × Value)

namespace Scope

def fixed? (s : Snapshot) (name : Text) : Option Value :=
  if name = "args".toList then some (.tuple (s.args.map fun t => .json (.text t)))
  else if name = "user".toList then some (.record (.user s.user))
  else if name = "server".toList then some (.record (.server s.server))
  else if name = "channel".toList then some (.record (.detail (.channel s.channel)))
  else if name = "client".toList then some (.record (.client s.uptime))
  else none

/-- The value of a root, a fixed one before a variable. -/
def root? (s : Scope) (name : Text) : Option Value :=
  (fixed? s.snapshot name).orElse fun _ => s.bindings.lookup name

end Scope

/-- Whether no step can be taken from here. -/
def Value.isDeadEnd : Option Value → Bool
  | none => true
  | some (.json (.scalar .null)) => true
  | some _ => false

mutual
def Expr.eval (scope : Scope) : Expr → Except Halt Value
  | .literal v => .ok v
  | .path root steps source => do
    match ← Step.walk scope (scope.root? root) steps with
    | some v => .ok v
    | none => .error (.eval (.unknownVariable source))
  | .not operand => do
    let v ← operand.eval scope
    return .bool !v.truth
  | .all operands => do
    let b ← Expr.evalAll scope operands
    return .bool b
  | .any operands => do
    let b ← Expr.evalAny scope operands
    return .bool b
  | .compare relation left right => do
    let a ← left.eval scope
    let b ← right.eval scope
    match a.relate relation b with
    | .ok holds => return .bool holds
    | .error (l, r) => .error (.eval (.noOrder l r))

/-- Whether all operands hold; those after the first that does not are left alone. -/
def Expr.evalAll (scope : Scope) : List Expr → Except Halt Bool
  | [] => .ok true
  | e :: rest => do
    let v ← e.eval scope
    if v.truth then Expr.evalAll scope rest else return false

/-- Whether some operand holds; those after the first that does are left alone. -/
def Expr.evalAny (scope : Scope) : List Expr → Except Halt Bool
  | [] => .ok false
  | e :: rest => do
    let v ← e.eval scope
    if v.truth then return true else Expr.evalAny scope rest

def Expr.evalList (scope : Scope) : List Expr → Except Halt (List Value)
  | [] => .ok []
  | e :: rest => do
    let v ← e.eval scope
    let vs ← Expr.evalList scope rest
    return v :: vs

def Step.take (scope : Scope) (v : Value) : Step → Except Halt (Option Value)
  | .field name => (v.field? name).mapError .crash
  | .index key => do
    let k ← key.eval scope
    (v.index? k).mapError .crash
  | .joinFrom start => .ok (v.joinFrom? start)
  | .call name args => do
    let vs ← Expr.evalList scope args
    return v.call? name vs

/-- The steps of a path, from the value reached so far. -/
def Step.walk (scope : Scope) (reached : Option Value) : List Step → Except Halt (Option Value)
  | [] => .ok reached
  | step :: rest =>
    match reached with
    | none => .ok none
    | some v =>
      if Value.isDeadEnd (some v) then .ok none
      else do
        let next ← step.take scope v
        Step.walk scope next rest
end

namespace Scope

/-- The value that a path leads to, if it can be read and leads to one. -/
def resolve (s : Scope) (t : Text) : Except Crash (Option Value) :=
  match (do
    let p ← Path.parse t
    Step.walk s (s.root? p.root) p.steps) with
  | .ok found => .ok found
  | .error (.eval _) => .ok none
  | .error (.crash c) => .error c

/-- Whether a condition holds; one that is blank, malformed or without a value does not. -/
def holds (s : Scope) (t : Text) : Except Crash Bool :=
  if Text.blank t then .ok false
  else
    match (Expr.parse t).bind (Expr.eval s) with
    | .ok v => .ok v.truth
    | .error (.eval _) => .ok false
    | .error (.crash c) => .error c

end Scope

end ChatCommands
