import ChatCommands.Instant.Basic
import ChatCommands.Value.Convert

/-!
What the gateway of the chat service hands over: objects that may or may not have an attribute.

An object also has a text by which it is shown. An attribute that is not there is told apart from
one that is null.
-/

namespace ChatCommands

inductive Attribute where
  | scalar (s : Scalar)
  | instant (i : Instant)
  | list (items : List Attribute)
  | object (attributes : List (Text × Attribute)) (shown : Text)

namespace Attribute

abbrev null : Attribute := .scalar .null

instance : Inhabited Attribute := ⟨null⟩

def isNull : Attribute → Bool
  | .scalar .null => true
  | _ => false

/-- An attribute of an object. Nothing else has attributes. -/
def get? (name : String) : Attribute → Option Attribute
  | .object attributes _ => attributes.lookup name.toList
  | _ => none

/-- An attribute, or another value where it is missing. -/
def getD (a : Attribute) (name : String) (fallback : Attribute) : Attribute :=
  (a.get? name).getD fallback

def get (name : String) (a : Attribute) : Except Crash Attribute :=
  match a.get? name with
  | some b => .ok b
  | none => .error .missingAttribute

def truth : Attribute → Bool
  | .scalar s => s.truth
  | .instant _ => true
  | .list items => !items.isEmpty
  | .object _ _ => true

/-- The attribute itself if it counts as true, otherwise another value. -/
def orElse (a fallback : Attribute) : Attribute :=
  if a.truth then a else fallback

/-- An instant as it is shown, with a blank between date and time. -/
def instantText (i : Instant) : Text :=
  i.text.map fun c => if c = 'T' then ' ' else c

mutual
/-- The text of an attribute inside a shown list: texts are quoted. -/
def literal : Attribute → Text
  | .scalar s => s.literal
  | .instant i => instantText i
  | .list items => '[' :: Text.join ", ".toList (literalItems items) ++ [']']
  | .object _ shown => shown
def literalItems : List Attribute → List Text
  | [] => []
  | x :: rest => literal x :: literalItems rest
end

/-- The text of an attribute: a text is itself, anything else its literal. -/
def display : Attribute → Text
  | .scalar s => s.display
  | a => a.literal

def toInteger : Attribute → Except Crash Int
  | .scalar s => s.toInteger
  | _ => .error .wrongKind

/-- The scalar that an attribute is. What has parts is passed on as null. -/
def toScalar : Attribute → Scalar
  | .scalar s => s
  | _ => .null

/-- The items of a list. The items of a text are its characters. -/
def items : Attribute → Except Crash (List Attribute)
  | .list items => .ok items
  | .scalar (.text t) => .ok (t.map fun c => .scalar (.text [c]))
  | _ => .error .wrongKind

/-- The text of an instant, which may be null. -/
def instantText? : Attribute → Except Crash (Option Text)
  | .scalar .null => .ok none
  | .instant i => .ok (some i.text)
  | _ => .error .missingAttribute

/-- The address of an image, which may be null: its own attribute, or the text of the image. -/
def address? (a : Attribute) : Option Text :=
  if a.isNull then none else some (a.getD "url" a).display

/-- The name of one of several choices, which may be null: its own attribute, or its text. -/
def choiceName? (a : Attribute) : Option Text :=
  if a.isNull then none
  else
    let name := a.getD "name" null
    some (if name.isNull then a.display else name.display)

/-- An attribute of an object as a truth value, false where it is missing. -/
def flag (name : String) (a : Attribute) : Bool :=
  (a.getD name null).truth

end Attribute

end ChatCommands
