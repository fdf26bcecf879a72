import ChatCommands.Text.Blank
import ChatCommands.Text.Case

/-!
A message that calls a command: the prefix of the server, the name at once or after blanks, and the
words after it.
-/

namespace ChatCommands

structure Invocation where
  name : Text
  args : List Text
deriving DecidableEq

namespace Invocation

/-- The call that a message makes. Without a prefix there is none. -/
def ofText? (own content : Text) : Option Invocation :=
  if own.isEmpty then none
  else
    (own.isPrefixOf? content).bind fun rest =>
      match Text.words rest with
      | [] => none
      | name :: args => some ⟨Text.lower name, args⟩

end Invocation

end ChatCommands
