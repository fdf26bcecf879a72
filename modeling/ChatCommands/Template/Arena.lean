import ChatCommands.Template.Span
import ChatCommands.Template.Escape

/-!
The arena: a template cut into slots at every edge of a span.

A span addresses a range of slots, so a new text for one span moves no other. Offsets into the
current text are sums of slot lengths. A write puts its text into the first slot of its range,
empties the others, and voids every span that lies inside the range.
-/

namespace ChatCommands

/-- A piece of the text; `written` says that it no longer comes from the template. -/
structure Slot where
  text : Text
  written : Bool
deriving DecidableEq

/-- A span of the template as a range of slots, both ends included. -/
structure Region where
  index : Nat
  first : Nat
  last : Nat
  parent : Option Nat
  depth : Nat
  void : Bool
deriving DecidableEq

structure Arena where
  slots : List Slot
  regions : List Region
deriving DecidableEq

namespace Arena

/-- The positions at which a text is cut: its two ends and the edges of its spans. -/
def cuts (t : Text) (spans : List Span) : List Nat :=
  (List.range (t.length + 1)).filter fun p =>
    p == 0 || p == t.length || spans.any fun s => s.start == p || s.stop == p

def ofSpans (t : Text) (spans : List Span) : Arena :=
  let edges := cuts t spans
  { slots := (edges.zip edges.tail).map fun (a, b) => ⟨t.slice a b, false⟩
    regions := spans.mapIdx fun i s =>
      { index := i, first := edges.idxOf s.start, last := edges.idxOf s.stop - 1,
        parent := s.parent, depth := s.depth, void := false } }

def ofText (t : Text) : Except Imbalance Arena :=
  (Span.scan t).map (ofSpans t)

def text (a : Arena) : Text :=
  a.slots.flatMap Slot.text

/-- The current text with escaped braces made literal, in the slots that come from the template. -/
def render (a : Arena) : Text :=
  a.slots.flatMap fun s => if s.written then s.text else unescape bracePair s.text

def totalLength : List Slot → Nat
  | [] => 0
  | s :: rest => s.text.length + totalLength rest

/-- Where slot number `k` begins in the current text. -/
def offset (a : Arena) (k : Nat) : Nat :=
  totalLength (a.slots.take k)

/-- Where each slot begins, and the length of the text. -/
def offsets (a : Arena) : List Nat :=
  (List.range (a.slots.length + 1)).map a.offset

def length (a : Arena) : Nat :=
  a.offset a.slots.length

def start (a : Arena) (r : Region) : Nat :=
  a.offset r.first

def stop (a : Arena) (r : Region) : Nat :=
  a.offset (r.last + 1)

def regionText (a : Arena) (r : Region) : Text :=
  ((a.slots.take (r.last + 1)).drop r.first).flatMap Slot.text

def live (a : Arena) : List Region :=
  a.regions.filter fun r => !r.void

/-- Whether the region with this index has been covered by a write. -/
def isVoid (a : Arena) (index : Nat) : Bool :=
  (a.regions[index]?.map Region.void).getD true

/-- Slots `first` to `last` become the one text `new`. -/
def write (a : Arena) (first last : Nat) (new : Text) : Arena :=
  { slots := a.slots.mapIdx fun k s =>
      if k = first then ⟨new, true⟩
      else if first < k ∧ k ≤ last then ⟨[], true⟩
      else s
    regions := a.regions.map fun r =>
      { r with void := r.void || decide (first ≤ r.first ∧ r.last ≤ last) } }

/-- A region becomes `new`; also the change of length. -/
def replace (a : Arena) (r : Region) (new : Text) : Int × Arena :=
  ((new.length : Int) - ((a.stop r : Int) - a.start r), a.write r.first r.last new)

/-- Slots `first` to `last` become empty; also the length that was removed. -/
def erase (a : Arena) (first last : Nat) : Int × Arena :=
  ((a.offset (last + 1) : Int) - a.offset first, a.write first last [])

/-- The position that a number names among `count` ones. A number below zero counts from the end. -/
def position? (count : Nat) (number : Int) : Option Nat :=
  let place := if number < 0 then number + count else number
  if 0 ≤ place ∧ place < count then some place.toNat else none

def region? (a : Arena) (number : Int) : Option Region :=
  (position? a.regions.length number).bind (a.regions[·]?)

/-- The numbers after `first` up to `last`. -/
def numbersAfter (first last : Int) : List Int :=
  (List.range (last - first).toNat).map fun (k : Nat) => first + 1 + k

/-- Erasing the slots from number `first` to number `last`, unless one of them names no slot. The
first slot is emptied even where the range is empty, and the removed length is that between the
two edges. -/
def erase? (a : Arena) (first last : Int) : Option (Int × Arena) := do
  let count := a.slots.length
  let stop ← position? (count + 1) (last + 1)
  let start ← position? (count + 1) first
  let head ← position? count first
  let emptied := head :: (numbersAfter first last).filterMap (position? count)
  let next : Arena := {
    slots := a.slots.mapIdx fun k s => if k ∈ emptied then ⟨[], true⟩ else s
    regions := a.regions.map fun r =>
      { r with void := r.void || decide (first ≤ r.first ∧ r.last ≤ last) } }
  return ((a.offset stop : Int) - a.offset start, next)

@[simp] theorem slots_length_write (a : Arena) (first last : Nat) (new : Text) :
    (a.write first last new).slots.length = a.slots.length := by
  simp [write]

end Arena

end ChatCommands
