import ChatCommands.Resolution.Run
import ChatCommands.Web.Url

/-!
What each instruction does.

An argument with an opening brace is a template of its own and is resolved, by the given resolver,
right before it is used. Any other argument stands as it is.
-/

namespace ChatCommands

inductive Verb where
  | set
  | var
  | random
  | choose
  | require
  | exclude
  | followup
  | webrequest
  | sticker
  | condition
  | marker
  | reference
deriving DecidableEq

namespace Verb

def keywords : List (Text × Verb) := [
  ("set".toList, .set), ("var".toList, .var), ("random".toList, .random),
  ("choose".toList, .choose), ("require".toList, .require), ("not".toList, .exclude),
  ("followup".toList, .followup), ("webrequest".toList, .webrequest),
  ("sticker".toList, .sticker), ("if".toList, .condition), ("else".toList, .marker),
  ("fi".toList, .marker)]

/-- What a keyword stands for; any other word refers to a variable. -/
def ofKeyword (keyword : Text) : Verb :=
  (keywords.lookup keyword).getD .reference

end Verb

namespace Resolve

variable {m : Type → Type} [Monad m] [MonadExceptOf Fault m] [MonadStateOf Run m]

def maxStickers : Nat := 3

/-- Whether a text is a variable name: a letter or underscore, then letters, digits and
underscores. -/
def isVariableName : Text → Bool
  | [] => false
  | c :: rest => (c.isAlpha || c == '_') && rest.all fun d => d.isAlphanum || d == '_'

def argument (inner : Text → m Text) (raw : Text) : m Text :=
  if '\x7b' ∈ raw then inner raw else pure raw

def nameArgument (inner : Text → m Text) (raw : Text) : m Text := do
  let name := Text.strip (← argument inner raw)
  if isVariableName name then return name else refuse (.invalidName name)

/-- The name and the value of a `set`: two arguments, or one with an equals sign. -/
def setParts (i : Instruction) : Except InstructionError (Text × Text) :=
  match i.args with
  | [] => .error .setWithoutArguments
  | [only] =>
    match Text.cutAt '=' only with
    | some parts => .ok parts
    | none => .error (.setWithoutValue i.text)
  | name :: _ => .ok (name, i.rest 1)

def set (inner : Text → m Text) (i : Instruction) : m Text := do
  match setParts i with
  | .error e => refuse e
  | .ok (rawName, rawValue) =>
    let name ← nameArgument inner rawName
    let value ← argument inner rawValue
    setEffects ((← effects).assign name (.text value))
    return []

def lookUp (c : Context) (path : Text) : m (Option Text) := do
  let found ← ofCrash ((← scope c).resolve path)
  match found with
  | some v => return some (← ofCrash v.rendered)
  | none => return none

def var (c : Context) (inner : Text → m Text) (i : Instruction) : m Text := do
  let path ← argument inner (i.rest 0)
  return (← lookUp c path).getD []

def bound (inner : Text → m Text) (i : Instruction) (raw : Text) : m Int := do
  let t := Text.strip (← argument inner raw)
  match Numeral.readInt t with
  | some n => return n
  | none => refuse (.notWhole t i.text)

def random (inner : Text → m Text) (i : Instruction) : m Text := do
  match i.args with
  | first :: second :: _ =>
    let a ← bound inner i first
    let b ← bound inner i second
    let e ← effects
    let (n, e) := if b < a then e.drawInteger b a else e.drawInteger a b
    setEffects e
    return Text.ofInt n
  | _ => refuse .randomWithoutBounds

def choose (inner : Text → m Text) (i : Instruction) : m Text := do
  if i.args.isEmpty then return []
  let (n, e) := (← effects).drawIndex i.args.length
  setEffects e
  argument inner (i.args[n]?.getD [])

def require (c : Context) (inner : Text → m Text) (i : Instruction) : m Text := do
  ofGate (Gate.require (← argument inner (i.rest 0)) c.snapshot)
  return []

def exclude (c : Context) (inner : Text → m Text) (i : Instruction) : m Text := do
  ofGate (Gate.exclude (← argument inner (i.rest 0)) c.snapshot)
  return []

def followup (inner : Text → m Text) (i : Instruction) : m Text := do
  let t ← argument inner (i.rest 0)
  setEffects ((← effects).queue t)
  return []

def urlArgument (inner : Text → m Text) (raw : Text) : m Text := do
  let url := Text.strip (← argument inner raw)
  let scheme ← ofCrash (Url.scheme url)
  if scheme = "http".toList ∨ scheme = "https".toList then return url
  else refuse (.notHttp url)

def defaultMethod : Text := "GET".toList

/-- The method of a request, where the argument for it is there and not blank. -/
def methodArgument (inner : Text → m Text) : Option Text → m Text
  | none => return defaultMethod
  | some raw => do
    if Text.blank raw then return defaultMethod
    else return Text.upper (Text.strip (← argument inner raw))

/-- The characters that may be escaped in a request body. -/
def bodyCharacters : Text := "\x7b\x7d[]".toList

/-- The body of a request: the JSON of the arguments from the fourth on, null without them. -/
def bodyArgument (inner : Text → m Text) (i : Instruction) (url : Text) : m Json := do
  if i.args.length ≤ 3 then return .null
  else
    let t := unescape bodyCharacters (← argument inner (i.rest 3))
    match Json.read t with
    | .ok body => return body
    | .error (.malformed problem position) =>
      refuse (.malformedBody url (Json.describe t problem position))
    | .error .tooManyDigits => throw (.crash .tooManyDigits)

/-- Sends a request and keeps the state of the transport. -/
def fetch (url method : Text) (body : Json) : m Response := do
  let e ← effects
  match e.transport with
  | none => refuse .noTransport
  | some transport =>
    let (result, sent) := transport.fetch url method Transport.defaultHeaders body
    setEffects { e with transport := some sent }
    match result with
    | .ok response => return response
    | .error failure => stop (.request failure)

def dataOf (url : Text) (r : Response) : m Json :=
  if r.isSuccess then
    match Json.read r.text with
    | .ok data => return data
    | .error (.malformed _ _) =>
      stop (.request ⟨url, some r.status, "response was not valid JSON".toList⟩)
    | .error .tooManyDigits => throw (.crash .tooManyDigits)
  else stop (.request ⟨url, some r.status, r.reason⟩)

def webrequest (c : Context) (inner : Text → m Text) (i : Instruction) : m Text := do
  if !c.requestsEnabled then refuse .requestsDisabled
  match i.args with
  | rawName :: rawUrl :: more =>
    let name ← nameArgument inner rawName
    let url ← urlArgument inner rawUrl
    let method ← methodArgument inner more.head?
    let body ← bodyArgument inner i url
    let response ← fetch url method body
    let data ← dataOf url response
    setEffects ((← effects).assign name (.json data))
    return []
  | _ => refuse .requestWithoutUrl

def sticker (c : Context) (inner : Text → m Text) (i : Instruction) : m Text := do
  let key := Text.strip (← argument inner (i.rest 0))
  match c.snapshot.server.findSticker key with
  | none => stop (.absent (.sticker key))
  | some s =>
    let e ← effects
    if maxStickers ≤ e.stickers.length then refuse (.tooManyStickers maxStickers)
    setEffects (e.attach ⟨s.id, s.name⟩)
    return []

/-- The value of a reference; a text that refers to nothing stays in its braces. -/
def reference (c : Context) (inner : Text → m Text) (i : Instruction) : m Text := do
  let path ← argument inner i.body
  return (← lookUp c path).getD ('\x7b' :: path ++ ['\x7d'])

/-- Whether the condition of an `if` holds. -/
def condition (c : Context) (inner : Text → m Text) (i : Instruction) : m Bool := do
  let t ← argument inner (i.rest 0)
  ofCrash ((← scope c).holds t)

/-- The text that takes the place of an instruction other than `if`. -/
def perform (c : Context) (inner : Text → m Text) (v : Verb) (i : Instruction) :
    m Text :=
  match v with
  | .set => set inner i
  | .var => var c inner i
  | .random => random inner i
  | .choose => choose inner i
  | .require => require c inner i
  | .exclude => exclude c inner i
  | .followup => followup inner i
  | .webrequest => webrequest c inner i
  | .sticker => sticker c inner i
  | .condition | .marker => return []
  | .reference => reference c inner i

end Resolve

end ChatCommands
