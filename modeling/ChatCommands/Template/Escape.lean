import ChatCommands.Text.Basic

/-!
Removal of escapes: a backslash in front of one of the given characters goes, any other pair
stays as it is.
-/

namespace ChatCommands

/-- The braces, the characters that a template escapes. -/
def bracePair : Text := ['{', '}']

/-- The text without the backslash in front of any of `characters`. -/
def unescape (characters : Text) : Text → Text
  | [] => []
  | [c] => [c]
  | c :: d :: rest =>
    if c = '\\' then
      if d ∈ characters then d :: unescape characters rest
      else c :: d :: unescape characters rest
    else c :: unescape characters (d :: rest)

theorem unescape_of_no_backslash {characters t : Text} (h : '\\' ∉ t) :
    unescape characters t = t := by
  induction t with
  | nil => rfl
  | cons c rest ih =>
    have hc : c ≠ '\\' := fun e => h (by simp [e])
    have hrest : '\\' ∉ rest := fun e => h (by simp [e])
    cases rest with
    | nil => rfl
    | cons d more => simp [unescape, hc, ih hrest]

end ChatCommands
