import ChatCommands.Value.Basic

/-!
What can go wrong while a condition or a path is read or evaluated.

An evaluation error is recoverable: the condition counts as false, the path as unresolved. A crash
is not.
-/

namespace ChatCommands

inductive EvalError where
  | unexpectedCharacter (c : Char) (position : Nat)
  | tooDeep
  | expected (mark : Text) (position : Option Nat)
  | unexpected (token : Text) (position : Nat)
  | unexpectedEnd
  | expectedNumber (position : Nat)
  | expectedVariable
  | expectedName
  | unknownVariable (source : Text)
  | noOrder (left right : Kind)
deriving DecidableEq

namespace EvalError

def place : Option Nat → Text
  | some position => "at position ".toList ++ Text.ofNat position
  | none => "at end of expression".toList

def message : EvalError → Text
  | .unexpectedCharacter c position =>
    "Unexpected character ".toList ++ Text.quoted [c] ++ [' '] ++ place (some position)
  | .tooDeep => "Expression nested too deeply".toList
  | .expected mark position => "Expected ".toList ++ Text.quoted mark ++ [' '] ++ place position
  | .unexpected token position =>
    "Unexpected ".toList ++ Text.quoted token ++ [' '] ++ place (some position)
  | .unexpectedEnd => "Unexpected end of expression".toList
  | .expectedNumber position =>
    "Expected a number after '-' ".toList ++ place (some position)
  | .expectedVariable => "Expected a variable name".toList
  | .expectedName => "Expected a name after '.'".toList
  | .unknownVariable source => "Unknown variable '".toList ++ source ++ ['\x27']
  | .noOrder left right =>
    "Cannot compare ".toList ++ left.name.toList ++ " with ".toList ++ right.name.toList

end EvalError

/-- Why reading or evaluating an expression stopped. -/
inductive Halt where
  | eval (e : EvalError)
  | crash (c : Crash)
deriving DecidableEq

end ChatCommands
