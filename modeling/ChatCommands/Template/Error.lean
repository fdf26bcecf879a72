import ChatCommands.Template.Block

/-!
The wording of the errors in the structure of a template.
-/

namespace ChatCommands

def Misplaced.reason : Misplaced → String
  | .strayElse => "\x7belse\x7d without a matching \x7bif\x7d"
  | .secondElse => "Only one \x7belse\x7d is allowed per \x7bif\x7d"
  | .strayFi => "\x7bfi\x7d without a matching \x7bif\x7d"
  | .missingFi => "Missing \x7bfi\x7d for this \x7bif\x7d"

namespace ParseError

def unbalancedText : Text := "Unbalanced braces in custom command response".toList

def message : ParseError → Text
  | .unbalanced (.unexpectedClose position) =>
    unbalancedText ++ " (unexpected '\x7d' at position ".toList ++ Text.ofNat position ++ [')']
  | .unbalanced (.unclosedOpen position) =>
    unbalancedText ++ " (unclosed '\x7b' at position ".toList ++ Text.ofNat position ++ [')']
  | .misplaced fault marker position =>
    fault.reason.toList ++ ": ".toList ++ marker ++ " at position ".toList ++ Text.ofNat position

def userMessage : ParseError → Text
  | .unbalanced _ => unbalancedText ++ ['.']
  | .misplaced fault marker _ => fault.reason.toList ++ ": `".toList ++ marker ++ ['`']

end ParseError

end ChatCommands
