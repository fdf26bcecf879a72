import ChatCommands.Crash
import ChatCommands.Text.Basic

/-!
The scheme of a URL, and the refusal of a malformed host.

Control characters and blanks in front are ignored, tabs and line breaks anywhere. After the
scheme, two slashes begin the host, which ends at the next slash, question mark or number sign. A
host may have an address in brackets, and no character that stands for one of the URL's own signs.
-/

namespace ChatCommands.Url

/-- The characters that may follow the first letter of a scheme. -/
def isSchemeChar (c : Char) : Bool :=
  c.isAlphanum || c == '+' || c == '-' || c == '.'

/-- The URL as it is read: without leading controls and blanks, and without tabs and line breaks. -/
def clean (t : Text) : Text :=
  (t.dropWhile fun c => c.toNat ≤ 0x20).filter fun c => !(c == '\t' || c == '\r' || c == '\n')

/-- The scheme in lower case, empty where there is none, and what follows it. -/
def cutScheme (t : Text) : Text × Text :=
  match t, Text.cutAt ':' t with
  | c :: _, some (scheme, rest) =>
    if c.isAlpha && scheme.all isSchemeChar then (scheme.map Char.toLower, rest) else ([], t)
  | _, _ => ([], t)

def host (rest : Text) : Text :=
  match rest with
  | '/' :: '/' :: t => t.takeWhile fun c => !(c == '/' || c == '?' || c == '#')
  | _ => []

def isHexDigit (c : Char) : Bool :=
  c.isDigit || ('a' ≤ c && c ≤ 'f') || ('A' ≤ c && c ≤ 'F')

/-- A part of a dotted address: at most three digits, no zero in front, at most 255. -/
def isOctet (t : Text) : Bool :=
  !t.isEmpty && t.all Char.isDigit && t.length ≤ 3 && (t == ['0'] || t.head? != some '0') &&
    t.foldl (fun n c => 10 * n + (c.toNat - '0'.toNat)) 0 ≤ 255

def isDottedAddress (t : Text) : Bool :=
  let octets := t.splitOn '.'
  octets.length == 4 && octets.all isOctet

/-- A part of a colon address: one to four hexadecimal digits. -/
def isHextet (t : Text) : Bool :=
  !t.isEmpty && t.length ≤ 4 && t.all isHexDigit

/-- The parts between colons, where a dotted address at the end counts as two. -/
def colonParts (t : Text) : Option (List Text) :=
  let parts := t.splitOn ':'
  match parts.getLast? with
  | some last =>
    if '.' ∈ last then
      if isDottedAddress last then some (parts.dropLast ++ [['0'], ['0']]) else none
    else some parts
  | none => none

/-- Whether the parts, of which at most one run may be left out, write eight hextets. -/
def isHextetList (parts : List Text) : Bool :=
  let inside := (parts.drop 1).dropLast
  match inside.findIdx? List.isEmpty with
  | none => parts.length == 8 && parts.all isHextet
  | some skip =>
    let before := parts.take (skip + 1)
    let after := parts.drop (skip + 2)
    let before := if before == [[]] then [] else before
    let after := if after == [[]] then [] else after
    before.all isHextet && after.all isHextet && before.length + after.length ≤ 7

/-- A colon address, possibly with a zone after a percent sign. -/
def isColonAddress (t : Text) : Bool :=
  let address := (Text.cutAt '%' t).map Prod.fst |>.getD t
  let zoneFits :=
    match Text.cutAt '%' t with
    | none => true
    | some (_, zone) => !zone.isEmpty && !zone.contains '%'
  let parts := address.splitOn ':'
  zoneFits && !address.contains '/' && 3 ≤ parts.length &&
    match colonParts address with
    | some parts => parts.length ≤ 9 && isHextetList parts
    | none => false

/-- An address of a later version: `v`, hexadecimal digits, a dot, and something more. -/
def isFutureAddress (t : Text) : Bool :=
  match Text.cutAt '.' (t.drop 1) with
  | some (version, rest) => !version.isEmpty && version.all isHexDigit && !rest.isEmpty
  | none => false

/-- Whether the brackets of a host are paired and hold an address. -/
def bracketsFit (h : Text) : Bool :=
  match h.contains '[', h.contains ']' with
  | false, false => true
  | true, true =>
    let after := ((Text.cutAt '[' h).map Prod.snd).getD []
    let address := ((Text.cutAt ']' after).map Prod.fst).getD after
    if address.head? = some 'v' then isFutureAddress address else isColonAddress address
  | _, _ => false

/-- The characters that compatibility forms turn into a sign of the URL. -/
def disguised : List Nat := [
  0x2047, 0x2048, 0x2049, 0x2100, 0x2101, 0x2105, 0x2106, 0x2a74, 0xfe13, 0xfe16, 0xfe55, 0xfe56,
  0xfe5f, 0xfe6b, 0xff03, 0xff0f, 0xff1a, 0xff1f, 0xff20]

def scheme (t : Text) : Except Crash Text :=
  let (scheme, rest) := cutScheme (clean t)
  let h := host rest
  if bracketsFit h && !(h.any fun c => disguised.contains c.toNat) then .ok scheme
  else .error .malformedUrl

end ChatCommands.Url
