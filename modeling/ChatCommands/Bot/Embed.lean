import ChatCommands.Store.Basic
import ChatCommands.Number.Binary64
import ChatCommands.Crash

/-!
The embeds that the bot shows: errors, changes, and pages of the list of commands.

All texts are cut to the limits of the chat service, and links in the list are broken so that they
show no preview.
-/

namespace ChatCommands

namespace Text

/-- The first `n` code points, or all but the last `-n` where `n` is negative. -/
def takeSigned (t : Text) (n : Int) : Text :=
  if 0 ≤ n then t.take n.toNat else t.take (t.length - (-n).toNat)

/-- A text cut to a limit, with dots in place of what is lost. -/
def truncate (t : Text) (limit : Int) : Text :=
  if t.length ≤ limit then t else t.takeSigned (limit - 3) ++ "...".toList

end Text

structure EmbedField where
  name : Text
  value : Text
  inline : Bool
deriving DecidableEq

structure Embed where
  title : Text
  description : Text
  color : Option Int
  fields : List EmbedField
  footer : Option Text
deriving DecidableEq

namespace Embed

def commandsPerPage : Nat := 10
def fieldValueLimit : Nat := 1024
def fieldNameLimit : Nat := 256
def errorLimit : Nat := 3900
def descriptionLimit : Nat := 4096

def listColor : Int := 0xf542dd
def addedColor : Int := 0x00ff00
def removedColor : Int := 0xff0000
def errorColor : Int := 0x992d22

def defang (t : Text) : Text :=
  Text.replace "https://".toList "htt-ps://".toList t

/-- The least integer that is not below a quotient, where the quotient is first rounded to a
floating point number. -/
def ceilQuotient (num den : Int) : Except Crash Int :=
  if den = 0 then .error .divisionByZero
  else
    match Binary64.ofRatio (decide (num < 0) != decide (den < 0)) num.natAbs den.natAbs with
    | .finite negative mantissa exponent =>
      let floor := (Binary64.truncate? (.finite negative mantissa exponent)).getD 0
      let whole := Binary64.isInteger (.finite negative mantissa exponent)
      .ok (if whole || negative then floor else floor + 1)
    | _ => .error .infiniteInteger

def pageCount (total perPage : Int) : Except Crash Int :=
  (ceilQuotient total perPage).map fun n => if n < 1 then 1 else n

def pagesOf (commands : List Command) : Int :=
  match pageCount commands.length commandsPerPage with
  | .ok n => n
  | .error _ => 1

def clampPage (page pages : Int) : Int :=
  if page < 1 then 1 else if pages < page then pages else page

def pageOf (commands : List Command) (page : Int) : List Command :=
  let first := ((clampPage page (pagesOf commands) - 1) * commandsPerPage).toNat
  (commands.drop first).take commandsPerPage

def commandField (c : Command) : EmbedField :=
  let suffix := " (".toList ++ c.id ++ [')']
  let value := Text.truncate (defang c.response) fieldValueLimit
  { name := c.name.takeSigned ((fieldNameLimit : Int) - suffix.length) ++ suffix
    value := if value.isEmpty then ['-'] else value
    inline := true }

def list (commands : List Command) (page : Int) : Embed :=
  let pages := pagesOf commands
  { title := "Custom Commands".toList
    description :=
      "Custom commands are commands that you can add to the bot.\n".toList ++
        Text.ofNat commands.length ++ " commands found.".toList
    color := some listColor
    fields := (pageOf commands page).map commandField
    footer := some ("Page ".toList ++ Text.ofInt (clampPage page pages) ++ " • ".toList ++
      Text.ofInt pages ++ " pages available".toList) }

def change (title : Text) (c : Command) (verb : Text) (color : Option Int) : Embed :=
  { title
    description := Text.truncate
      ("Command **'".toList ++ c.name ++ "'** with response **'".toList ++ c.response ++
        "'** has been ".toList ++ verb ++ ". (ID: ".toList ++ c.id ++ [')']) descriptionLimit
    color
    fields := []
    footer := none }

def error (message : Text) : Embed :=
  { title := "Error Triggering Custom Command".toList
    description :=
      "I encountered an error while trying to execute this command.\n\nError:\n```".toList ++
        Text.truncate message errorLimit ++ "```".toList
    color := some errorColor
    fields := []
    footer := none }

end Embed

end ChatCommands
