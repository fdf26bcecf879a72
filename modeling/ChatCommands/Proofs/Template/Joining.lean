import ChatCommands.Proofs.Template.Script

/-!
The script of two templates, one written behind the other.

Only where the first ends and the second begins with a text without braces do the two scripts
meet: there the two texts are one piece.
-/

namespace ChatCommands

open Piece

namespace Piece.Separated

theorem exchange {front ps qs : List Piece} {body : Text}
    (h : Separated (front ++ .span body :: ps)) (hq : Separated qs) :
    Separated (front ++ .span body :: qs) := by
  induction front with
  | nil =>
    cases h with
    | span hi _ => exact .span hi hq
  | cons p front ih =>
    cases front with
    | nil =>
      cases h with
      | plain nonempty flat whole hs => exact .plain nonempty flat whole (ih hs)
      | span hi hs => exact .span hi (ih hs)
    | cons p' front =>
      cases h with
      | plain nonempty flat whole hs => exact .plain nonempty flat whole (ih hs)
      | span hi hs => exact .span hi (ih hs)

theorem behind (front : List Piece) {ps : List Piece} {body : Text}
    (h : Separated (front ++ .span body :: ps)) :
    Separated ps ∧ (textOf (front ++ .span body :: ps)).dangling = (textOf ps).dangling := by
  induction front with
  | nil =>
    cases h with
    | span hi hs => exact ⟨hs, Text.dangling_append hi.span.whole _⟩
  | cons p front ih =>
    obtain ⟨hs, same⟩ := ih h.tail
    refine ⟨hs, same ▸ ?_⟩
    rw [List.cons_append] at h ⊢
    generalize rest : front ++ Piece.span body :: ps = tail at h ⊢
    cases h with
    | last => simp at rest
    | plain _ _ whole _ => exact Text.dangling_append whole _
    | span hi _ => exact Text.dangling_append hi.span.whole _

theorem append_span {ps qs : List Piece} {body : Text} (h : Separated ps)
    (whole : (textOf ps).dangling = false) (hq : Separated (.span body :: qs)) :
    Separated (ps ++ .span body :: qs) := by
  induction h with
  | nil => exact hq
  | last nonempty flat =>
    refine .plain nonempty flat ?_ hq
    simpa [text] using whole
  | plain nonempty flat whole_u hs ih =>
    rw [textOf_cons, text, Text.dangling_append whole_u] at whole
    exact .plain nonempty flat whole_u (ih whole)
  | span hi hs ih =>
    rw [textOf_cons, text, Text.dangling_append hi.span.whole] at whole
    exact .span hi (ih whole)

theorem whole {ps : List Piece} (h : Separated ps) (whole : (textOf ps).dangling = false) :
    ∀ u, .plain u ∈ ps → u.dangling = false := by
  induction h with
  | nil => simp
  | last _ _ => simpa [text] using whole
  | plain _ _ whole_u _ ih =>
    rw [textOf_cons, text, Text.dangling_append whole_u] at whole
    intro u member
    rcases List.mem_cons.mp member with same | member
    · cases same
      exact whole_u
    · exact ih whole u member
  | span hi _ ih =>
    rw [textOf_cons, text, Text.dangling_append hi.span.whole] at whole
    intro u member
    rcases List.mem_cons.mp member with same | member
    · cases same
    · exact ih whole u member

end Piece.Separated

/-- The pieces of a text followed by another. -/
structure Joined (ps qs joined : List Piece) : Prop where
  separated : Separated joined
  text : textOf joined = textOf ps ++ textOf qs
  spans : ∀ body, .span body ∈ joined ↔ .span body ∈ ps ∨ .span body ∈ qs

namespace Joined

theorem behind (front : List Piece) {ps qs joined : List Piece} {body : Text}
    (h : Separated (front ++ .span body :: ps)) (rest : Joined ps qs joined) :
    Joined (front ++ .span body :: ps) qs (front ++ .span body :: joined) := by
  refine ⟨h.exchange rest.separated, ?_, fun inner => ?_⟩
  · simp [rest.text]
  · simp only [List.mem_append, List.mem_cons, rest.spans inner, or_assoc]

theorem glue {u : Text} {ps qs joined : List Piece} (nonempty : u ≠ [])
    (flat : Brace.ofText u = []) (whole : u.dangling = false) (rest : Joined ps qs joined) :
    Joined (.plain u :: ps) qs (Piece.glue u joined) := by
  refine ⟨rest.separated.glue nonempty flat whole, ?_, fun inner => ?_⟩
  · rw [textOf_glue, rest.text, textOf_cons, Piece.text, List.append_assoc]
  · have member : .span inner ∈ Piece.glue u joined ↔ .span inner ∈ joined := by
      unfold Piece.glue
      split <;> simp
    simp [member, rest.spans inner]

end Joined

namespace Script

/-- A script with a text without braces put in front. -/
def glue (u : Text) : Script → Script
  | leaf (.plain v) next => leaf (.plain (u ++ v)) next
  | s => leaf (.plain u) s

/-- The script of a template that goes on with another. -/
def join : Script → Script → Script
  | done, s => s
  | leaf (.plain u) next, s => (next.join s).glue u
  | leaf (.span body) next, s => leaf (.span body) (next.join s)
  | ifThen opener yes closer next, s => ifThen opener yes closer (next.join s)
  | ifElse opener yes divider no closer next, s =>
    ifElse opener yes divider no closer (next.join s)

theorem fits_glue {s : Script} (fits : s.Fits) (u : Text) : (s.glue u).Fits := by
  unfold glue
  split
  · exact ⟨rfl, fits.2⟩
  · exact ⟨rfl, fits⟩

theorem fits_join {s s' : Script} (fits : s.Fits) (fits' : s'.Fits) : (s.join s').Fits := by
  induction s with
  | done => exact fits'
  | leaf p next ih =>
    cases p with
    | plain u => exact fits_glue (ih fits.2) u
    | span body => exact ⟨fits.1, ih fits.2⟩
  | ifThen opener yes closer next _ ih =>
    obtain ⟨ho, hy, hc, hn⟩ := fits
    exact ⟨ho, hy, hc, ih hn⟩
  | ifElse opener yes divider no closer next _ _ ih =>
    obtain ⟨ho, hy, hd, hno, hc, hn⟩ := fits
    exact ⟨ho, hy, hd, hno, hc, ih hn⟩

theorem items_glue {s : Script} (fits : s.Fits) (u : Text) :
    (s.glue u).items = Piece.glue u s.items := by
  cases s with
  | done => rfl
  | leaf p next => cases p <;> rfl
  | ifThen opener yes closer next =>
    cases opener with
    | plain v => cases fits.1
    | span body => rfl
  | ifElse opener yes divider no closer next =>
    cases opener with
    | plain v => cases fits.1
    | span body => rfl

theorem joined_items {s s' : Script} (fits : s.Fits) (fits' : s'.Fits)
    (separated : Separated s.items) (separated' : Separated s'.items)
    (whole : (textOf s.items).dangling = false) :
    Joined s.items s'.items (s.join s').items := by
  have bounded {p : Piece} {kind : Marker} (h : p.marker? = some kind) :
      ∃ body, p = .span body := by
    cases p with
    | plain u => cases h
    | span body => exact ⟨body, rfl⟩
  induction s with
  | done => exact ⟨separated', rfl, by simp [items, join]⟩
  | leaf p next ih =>
    cases p with
    | plain u =>
      rw [join, items_glue (fits_join fits.2 fits')]
      rw [items] at separated whole ⊢
      generalize eq : next.items = ps at separated whole ih ⊢
      cases separated with
      | last nonempty flat =>
        rw [textOf_cons, textOf_nil, List.append_nil, text] at whole
        exact .glue nonempty flat whole (ih fits.2 .nil rfl)
      | plain nonempty flat whole_u hs =>
        rw [textOf_cons, text, Text.dangling_append whole_u] at whole
        exact .glue nonempty flat whole_u (ih fits.2 hs whole)
    | span body =>
      obtain ⟨hs, same⟩ := Separated.behind [] separated
      exact .behind [] separated (ih fits.2 hs (same ▸ whole))
  | ifThen opener yes closer next _ ih =>
    obtain ⟨_, _, hc, hn⟩ := fits
    obtain ⟨body, rfl⟩ := bounded hc
    obtain ⟨hs, same⟩ := Separated.behind (opener :: yes.items) separated
    exact .behind (opener :: yes.items) separated (ih hn hs (same ▸ whole))
  | ifElse opener yes divider no closer next _ _ ih =>
    obtain ⟨_, _, _, _, hc, hn⟩ := fits
    obtain ⟨body, rfl⟩ := bounded hc
    have shape (ps : List Piece) :
        opener :: (yes.items ++ divider :: (no.items ++ .span body :: ps)) =
          opener :: (yes.items ++ divider :: no.items) ++ .span body :: ps := by simp
    rw [join, items, items, shape, shape]
    rw [items, shape] at separated whole
    obtain ⟨hs, same⟩ := Separated.behind _ separated
    exact .behind _ separated (ih hn hs (same ▸ whole))

theorem Reads.join {s s' : Script} {t t' : Text} (h : s.Reads t) (h' : s'.Reads t')
    (whole : t.dangling = false) : (s.join s').Reads (t ++ t') := by
  have joined := joined_items h.fits h'.fits h.separated h'.separated (h.text.symm ▸ whole)
  refine ⟨joined.separated, by rw [joined.text, h.text, h'.text], fits_join h.fits h'.fits, ?_⟩
  intro body member
  rcases (joined.spans body).mp member with member | member
  · exact h.inside body member
  · exact h'.inside body member

end Script

end ChatCommands
