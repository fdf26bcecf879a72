import ChatCommands.Proofs.Template.Spans

/-!
The top level of a template: texts without braces, and spans between them.

What lies inside a span is kept as a text. Neighbouring texts are one piece, so that the pieces of
a template are its slots as far as the top level goes.
-/

namespace ChatCommands

inductive Piece where
  | plain (t : Text)
  | span (inner : Text)
deriving DecidableEq

namespace Piece

def text : Piece → Text
  | plain t => t
  | span inner => Text.braced inner

def textOf (ps : List Piece) : Text :=
  ps.flatMap text

@[simp] theorem textOf_nil : textOf [] = [] := rfl

@[simp] theorem textOf_cons (p : Piece) (ps : List Piece) : textOf (p :: ps) = p.text ++ textOf ps :=
  rfl

@[simp] theorem textOf_append (ps qs : List Piece) : textOf (ps ++ qs) = textOf ps ++ textOf qs := by
  simp [textOf]

/-- Whether every span is closed, every other piece is a text without braces that is not empty,
and such texts are as long as can be. Only at the very end a backslash may be left over. -/
inductive Separated : List Piece → Prop where
  | nil : Separated []
  | last {u : Text} : u ≠ [] → Brace.ofText u = [] → Separated [plain u]
  | plain {u inner : Text} {ps : List Piece} : u ≠ [] → Brace.ofText u = [] →
      u.dangling = false → Separated (span inner :: ps) → Separated (plain u :: span inner :: ps)
  | span {inner : Text} {ps : List Piece} : Closed inner → Separated ps →
      Separated (span inner :: ps)

def glue (u : Text) : List Piece → List Piece
  | plain v :: ps => plain (u ++ v) :: ps
  | ps => plain u :: ps

theorem textOf_glue (u : Text) (ps : List Piece) : textOf (glue u ps) = u ++ textOf ps := by
  unfold glue
  split <;> simp [text]

end Piece

theorem flat_append {u v : Text} (whole : u.dangling = false) (hu : Brace.ofText u = [])
    (hv : Brace.ofText v = []) : Brace.ofText (u ++ v) = [] := by
  rw [Brace.ofText, Brace.ofTextAt_append _ whole, ← Brace.ofText, hu,
    Brace.ofTextAt_eq_nil _ hv, List.append_nil]

namespace Piece

theorem Separated.glue {u : Text} {ps : List Piece} (nonempty : u ≠ [])
    (flat : Brace.ofText u = []) (whole : u.dangling = false) (h : Separated ps) :
    Separated (Piece.glue u ps) := by
  cases h with
  | nil => exact .last nonempty flat
  | last hv flat_v => exact .last (by simp [nonempty]) (flat_append whole flat flat_v)
  | plain hv flat_v whole_v hs =>
    refine .plain (by simp [nonempty]) (flat_append whole flat flat_v) ?_ hs
    rw [Text.dangling_append whole, whole_v]
  | span hi hs => exact .plain nonempty flat whole (.span hi hs)

theorem Separated.tail {p : Piece} {ps : List Piece} (h : Separated (p :: ps)) : Separated ps := by
  cases h with
  | last => exact .nil
  | plain _ _ _ hs => exact hs
  | span _ hs => exact hs

theorem Separated.closed_inner {inner : Text} {ps : List Piece} (h : Separated ps)
    (member : .span inner ∈ ps) : Closed inner := by
  induction h with
  | nil => simp at member
  | last => simp at member
  | plain _ _ _ _ ih =>
    rcases List.mem_cons.mp member with h | h
    · cases h
    · exact ih h
  | span hi _ ih =>
    rcases List.mem_cons.mp member with h | h
    · cases h
      exact hi
    · exact ih h

theorem exists_separated {t : Text} (h : Balanced t) : ∃ ps, Separated ps ∧ textOf ps = t := by
  obtain ⟨s, hs, tail⟩ := h
  obtain ⟨rest, start, rfl⟩ : ∃ rest, (∃ ps, Separated ps ∧ textOf ps = rest) ∧ t = s ++ rest := by
    rcases tail with rfl | rfl
    · exact ⟨[], ⟨[], .nil, rfl⟩, by simp⟩
    · exact ⟨['\\'], ⟨[plain ['\\']], .last (by simp) rfl, rfl⟩, rfl⟩
  clear tail
  induction hs using Closed.part_induction with
  | nil => exact start
  | flat u t hu ht flat ih =>
    obtain ⟨ps, hps, eq⟩ := ih
    by_cases empty : u = []
    · exact ⟨ps, hps, by simp [empty, eq]⟩
    · exact ⟨_, hps.glue empty flat hu.whole, by rw [textOf_glue, eq, List.append_assoc]⟩
  | span inner t hi ht _ ih =>
    obtain ⟨ps, hps, eq⟩ := ih
    exact ⟨.span inner :: ps, .span hi hps, by simp [text, eq]⟩

theorem Separated.balanced {ps : List Piece} (h : Separated ps) : Balanced (textOf ps) := by
  induction h with
  | nil => exact Closed.nil.balanced
  | last _ flat =>
    rw [textOf_cons, textOf_nil, List.append_nil]
    exact balanced_of_flat flat
  | plain _ flat whole _ ih => exact (closed_of_flat flat whole).append_balanced ih
  | span hi _ ih => exact hi.span.append_balanced ih

end Piece

end ChatCommands
