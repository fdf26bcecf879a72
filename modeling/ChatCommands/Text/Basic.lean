/-!
Texts and the plain operations on them.

A text is the list of its code points, so lengths, offsets and limits count code points. String
literals enter through `String.toList` and results leave through `String.ofList`.
-/

namespace ChatCommands

/-- A text, as the list of its code points. -/
abbrev Text := List Char

namespace Text

/-- Whether `needle` occurs in the text as a block. -/
def includes (needle : Text) : Text → Bool
  | [] => needle.isEmpty
  | c :: rest => needle.isPrefixOf (c :: rest) || includes needle rest

/-- The parts before and after the first `mark`, or nothing where there is none. -/
def cutAt (mark : Char) : Text → Option (Text × Text)
  | [] => none
  | c :: rest =>
    if c = mark then some ([], rest)
    else (cutAt mark rest).map fun (before, after) => (c :: before, after)

/-- Every occurrence of `old`, taken from the left without overlap, becomes `new`. -/
def replace (old new : Text) (t : Text) : Text :=
  match t with
  | [] => []
  | c :: rest =>
    if _h : old.isPrefixOf (c :: rest) && !old.isEmpty then
      new ++ replace old new ((c :: rest).drop old.length)
    else c :: replace old new rest
termination_by t.length
decreasing_by
  · simp only [Bool.and_eq_true, Bool.not_eq_true', List.isEmpty_eq_false_iff] at _h
    have := List.length_pos_iff.2 _h.2
    simp only [List.length_drop, List.length_cons]
    omega
  · simp

/-- The parts, with `separator` between each two. -/
def join (separator : Text) (parts : List Text) : Text :=
  separator.intercalate parts

/-- The code points from `first` up to, not including, `last`. -/
def slice (t : Text) (first last : Nat) : Text :=
  (t.take last).drop first

def ofNat (n : Nat) : Text :=
  Nat.toDigits 10 n

def ofInt : Int → Text
  | .ofNat n => ofNat n
  | .negSucc n => '-' :: ofNat (n + 1)

/-- The digits of `n` in base sixteen, with zeros in front up to `width`. -/
def hex (width n : Nat) : Text :=
  let digits := Nat.toDigits 16 n
  List.replicate (width - digits.length) '0' ++ digits

/-- The digits of `n` in base ten, with zeros in front up to `width`. -/
def padded (width n : Nat) : Text :=
  let digits := ofNat n
  List.replicate (width - digits.length) '0' ++ digits

def before (s t : Text) : Bool :=
  s.lex t

theorem join_cons_cons (separator p q : Text) (rest : List Text) :
    join separator (p :: q :: rest) = p ++ (separator ++ join separator (q :: rest)) := by
  simp [join, List.intercalate_cons_cons]

theorem cutAt_eq_some {mark : Char} {t before after : Text}
    (h : cutAt mark t = some (before, after)) : t = before ++ mark :: after := by
  induction t generalizing before after with
  | nil => simp [cutAt] at h
  | cons c rest ih =>
    by_cases hc : c = mark
    · simp only [cutAt, hc, if_true, Option.some.injEq, Prod.mk.injEq] at h
      simp [hc, ← h.1, h.2]
    · simp only [cutAt, hc, if_false, Option.map_eq_some_iff] at h
      obtain ⟨⟨b, a⟩, hcut, heq⟩ := h
      simp only [Prod.mk.injEq] at heq
      have := ih hcut
      simp [← heq.1, ← heq.2, this]

theorem cutAt_append {mark : Char} {before : Text} (absent : mark ∉ before) (after : Text) :
    cutAt mark (before ++ mark :: after) = some (before, after) := by
  induction before with
  | nil => simp [cutAt]
  | cons c rest ih =>
    rw [List.mem_cons, not_or] at absent
    simp [cutAt, Ne.symm absent.1, ih absent.2]

end Text

end ChatCommands
