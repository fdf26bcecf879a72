import ChatCommands.Text.Range

/-!
White space, and what is built on it: trimming a text and cutting it into words.
-/

namespace ChatCommands.Text

def blankRanges : List (Nat × Nat) := [
  (0x9, 0xd), (0x1c, 0x20), (0x85, 0x85), (0xa0, 0xa0), (0x1680, 0x1680), (0x2000, 0x200a),
  (0x2028, 0x2029), (0x202f, 0x202f), (0x205f, 0x205f), (0x3000, 0x3000)]

/-- White space: the separators of Unicode and the control characters that move the position. -/
def isBlank (c : Char) : Bool :=
  inRanges blankRanges c

def stripStart (t : Text) : Text :=
  t.dropWhile isBlank

def stripEnd (t : Text) : Text :=
  (t.reverse.dropWhile isBlank).reverse

def strip (t : Text) : Text :=
  stripEnd (stripStart t)

/-- The maximal runs of characters that are not white space. -/
def words (t : Text) : List Text :=
  (t.splitOnP isBlank).filter fun w => !w.isEmpty

/-- White space only, or nothing. -/
def blank (t : Text) : Bool :=
  (strip t).isEmpty

theorem stripStart_append_of_blank {pad t : Text} (h : ∀ c ∈ pad, isBlank c = true) :
    stripStart (pad ++ t) = stripStart t := by
  induction pad with
  | nil => rfl
  | cons c rest ih =>
    have hc : isBlank c = true := h c (by simp)
    have hrest : ∀ d ∈ rest, isBlank d = true := fun d hd => h d (by simp [hd])
    simpa [stripStart, hc] using ih hrest

end ChatCommands.Text
