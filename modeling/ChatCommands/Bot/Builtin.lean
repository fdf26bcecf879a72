import ChatCommands.Bot.Word
import ChatCommands.Number.Numeral

/-!
The commands of the bot itself: their names, and how their arguments are read.

A name must be written exactly. The commands that manage custom commands are named by two words;
the first one alone lists the custom commands.
-/

namespace ChatCommands

inductive Builtin where
  | list
  | add
  | edit
  | remove
  | run
  | showPrefix
  | help
deriving DecidableEq

namespace Builtin

/-- The word that all commands on custom commands begin with. -/
def group : Text := "custom".toList

def members : List (Text × Builtin) := [
  ("list".toList, .list), ("add".toList, .add), ("edit".toList, .edit),
  ("remove".toList, .remove), ("delete".toList, .remove), ("run".toList, .run)]

def singles : List (Text × Builtin) := [("prefix".toList, .showPrefix), ("help".toList, .help)]

/-- Whether a name belongs to a command of the bot. A command of one word takes every name that
begins with it and a blank. -/
def isTaken (name : Text) : Bool :=
  if !name.contains ' ' then name == group || (singles.lookup name).isSome
  else
    match Text.words name with
    | [] => false
    | [first] => first == group || (singles.lookup first).isSome
    | first :: second :: more =>
      if first = group then more.isEmpty && (members.lookup second).isSome
      else (singles.lookup first).isSome

/-- The characters up to the first blank, and what follows them. -/
def word (t : Text) : Text × Text :=
  t.span fun c => !Text.isBlank c

/-- The command that a text after the prefix names, and what follows its name. -/
def ofText? (t : Text) : Option (Builtin × Text) :=
  let (first, rest) := word t
  if first = group then
    let (second, more) := word (Text.stripStart rest)
    match members.lookup second with
    | some b => some (b, more)
    | none => some (.list, rest)
  else (singles.lookup first).map fun b => (b, rest)

end Builtin

/-- A command with its arguments. -/
inductive Call where
  | list (page : Int)
  | add (name response : Text)
  | edit (identifier response : Text)
  | remove (identifier : Text)
  | run (template : Text)
  | showPrefix (own : Text)
  | help
deriving DecidableEq

/-- Why the arguments of a command cannot be read. -/
inductive CallError where
  | word (e : WordError)
  | badPage
deriving DecidableEq

namespace Call

/-- The page that a word names, the first one where there is no word. -/
def pageOf (t : Text) : Except CallError Int :=
  match Word.first? t with
  | .error e => .error (.word e)
  | .ok none => .ok 1
  | .ok (some (w, _)) =>
    match Numeral.readInt w with
    | some n => .ok n
    | none => .error .badPage

def wordAndRest (t : Text) : Except CallError (Text × Text) :=
  match Word.first t with
  | .ok (w, rest) => .ok (w, Text.strip rest)
  | .error e => .error (.word e)

/-- The command with the arguments that a text gives. What is missing is empty. -/
def ofText (t : Text) : Builtin → Except CallError Call
  | .list => (pageOf t).map .list
  | .add => (wordAndRest t).map fun (w, rest) => .add w rest
  | .edit => (wordAndRest t).map fun (w, rest) => .edit w rest
  | .remove => (wordAndRest t).map fun (w, _) => .remove w
  | .run => .ok (.run (Text.strip t))
  | .showPrefix => (wordAndRest t).map fun (w, _) => .showPrefix w
  | .help => .ok .help

end Call

end ChatCommands
