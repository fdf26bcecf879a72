import ChatCommands.Text.CaseTable
import ChatCommands.Text.Range

/-!
Lower and upper case of a text by the full mappings of Unicode.

A capital sigma becomes the final form where a cased character stands before it and none after
it, case-ignorable characters being looked past.
-/

namespace ChatCommands.Text

/-- The character that the first matching run maps `c` to, or `c`. -/
def mapByRuns (runs : List CaseRun) (c : Char) : Char :=
  let covers (r : CaseRun) : Bool :=
    r.first ≤ c.toNat && c.toNat ≤ r.last && (c.toNat - r.first) % r.step == 0
  match runs.find? covers with
  | some r => Char.ofNat (c.toNat + r.shift).toNat
  | none => c

/-- One character mapped by the long forms first and the runs after. -/
def mapCase (long : List (Nat × List Nat)) (runs : List CaseRun) (c : Char) : Text :=
  match long.lookup c.toNat with
  | some points => points.map Char.ofNat
  | none => [mapByRuns runs c]

/-- Whether the nearest character that is not looked past is cased. -/
def nextIsCased (t : Text) : Bool :=
  match t.dropWhile (inRanges caseIgnorableRanges) with
  | [] => false
  | c :: _ => inRanges casedRanges c

/-- Lower case of a text, where `before` is what precedes it, nearest character first. -/
def lowerAfter (before : Text) : Text → Text
  | [] => []
  | c :: rest =>
    let mapped :=
      if c = 'Σ' then [if nextIsCased before && !nextIsCased rest then 'ς' else 'σ']
      else mapCase lowerLong lowerRuns c
    mapped ++ lowerAfter (c :: before) rest

def lower (t : Text) : Text :=
  lowerAfter [] t

def upper (t : Text) : Text :=
  t.flatMap (mapCase upperLong upperRuns)

end ChatCommands.Text
