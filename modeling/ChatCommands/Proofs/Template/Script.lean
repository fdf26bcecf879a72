import ChatCommands.Proofs.Template.Marking

/-!
A template read as a program: pieces in order, where a conditional block is one unit with its
branches inside.
-/

namespace ChatCommands

/-- The structure of a template. -/
inductive Script where
  | done
  | leaf (p : Piece) (next : Script)
  | ifThen (opener : Piece) (yes : Script) (closer : Piece) (next : Script)
  | ifElse (opener : Piece) (yes : Script) (divider : Piece) (no : Script) (closer : Piece)
      (next : Script)

namespace Script

open Piece

def items : Script → List Piece
  | done => []
  | leaf p next => p :: next.items
  | ifThen opener yes closer next => opener :: (yes.items ++ closer :: next.items)
  | ifElse opener yes divider no closer next =>
    opener :: (yes.items ++ divider :: (no.items ++ closer :: next.items))

/-- Whether the markers of a script are those that bound its blocks, and no others. -/
def Fits : Script → Prop
  | done => True
  | leaf p next => p.marker? = none ∧ next.Fits
  | ifThen opener yes closer next =>
    opener.marker? = some .opens ∧ yes.Fits ∧ closer.marker? = some .closes ∧ next.Fits
  | ifElse opener yes divider no closer next =>
    opener.marker? = some .opens ∧ yes.Fits ∧ divider.marker? = some .divides ∧ no.Fits ∧
      closer.marker? = some .closes ∧ next.Fits

theorem paired_items {s : Script} (fits : s.Fits) (pending : List Bool) (rest : List Marker) :
    Marker.paired pending (s.items.filterMap marker? ++ rest) = Marker.paired pending rest := by
  induction s generalizing pending rest with
  | done => rfl
  | leaf p next ih =>
    simp only [items, List.filterMap_cons, fits.1]
    exact ih fits.2 pending rest
  | ifThen opener yes closer next ih_yes ih =>
    obtain ⟨ho, hy, hc, hn⟩ := fits
    simp only [items, List.filterMap_cons, List.filterMap_append, ho, hc, List.cons_append,
      List.append_assoc, Marker.paired, ih_yes hy, ih hn]
  | ifElse opener yes divider no closer next ih_yes ih_no ih =>
    obtain ⟨ho, hy, hd, hno, hc, hn⟩ := fits
    simp only [items, List.filterMap_cons, List.filterMap_append, ho, hd, hc, List.cons_append,
      List.append_assoc, Marker.paired, ih_yes hy, ih_no hno, ih hn]

/-- Pieces that end the innermost block, which has its `else`, and go on. -/
def Ends (after : List Piece → Prop) (ps : List Piece) : Prop :=
  ∃ (s : Script) (closer : Piece) (rest : List Piece), ps = s.items ++ closer :: rest ∧ s.Fits ∧
    closer.marker? = some .closes ∧ after rest

/-- Pieces that divide the innermost block, end it, and go on. -/
def Divides (after : List Piece → Prop) (ps : List Piece) : Prop :=
  ∃ (s : Script) (divider : Piece) (rest : List Piece), ps = s.items ++ divider :: rest ∧ s.Fits ∧
    divider.marker? = some .divides ∧ Ends after rest

/-- Pieces that close the blocks open before them. -/
def Finishes : List Bool → List Piece → Prop
  | [], ps => ∃ s : Script, s.items = ps ∧ s.Fits
  | true :: outer, ps => Ends (Finishes outer) ps
  | false :: outer, ps => Ends (Finishes outer) ps ∨ Divides (Finishes outer) ps

theorem Finishes.extend (unit : Script → Script) (front : List Piece)
    (items_unit : ∀ s, (unit s).items = front ++ s.items) (fits_unit : ∀ s, s.Fits → (unit s).Fits)
    {pending : List Bool} {ps : List Piece} (h : Finishes pending ps) :
    Finishes pending (front ++ ps) := by
  have ends {after : List Piece → Prop} {ps : List Piece} (h : Ends after ps) :
      Ends after (front ++ ps) := by
    obtain ⟨s, closer, rest, rfl, fits, hc, ha⟩ := h
    exact ⟨unit s, closer, rest, by simp [items_unit], fits_unit s fits, hc, ha⟩
  rcases pending with _ | ⟨_ | _, outer⟩
  · obtain ⟨s, rfl, fits⟩ := h
    exact ⟨unit s, items_unit s, fits_unit s fits⟩
  · rcases h with h | ⟨s, divider, rest, rfl, fits, hd, ha⟩
    · exact .inl (ends h)
    · exact .inr ⟨unit s, divider, rest, by simp [items_unit], fits_unit s fits, hd, ha⟩
  · exact ends h

theorem finishes_of_paired (ps : List Piece) (pending : List Bool)
    (h : Marker.paired pending (ps.filterMap marker?) = true) : Finishes pending ps := by
  induction ps generalizing pending with
  | nil =>
    cases pending with
    | nil => exact ⟨done, rfl, trivial⟩
    | cons b outer => simp [Marker.paired] at h
  | cons p ps ih =>
    rw [List.filterMap_cons] at h
    cases kind : p.marker? with
    | none =>
      rw [kind] at h
      exact (ih pending h).extend (leaf p) [p] (fun _ => rfl) fun _ fits => ⟨kind, fits⟩
    | some m =>
      rw [kind] at h
      cases m with
      | opens =>
        rcases ih (false :: pending) h with
          ⟨yes, closer, rest, rfl, hy, hc, after⟩ |
          ⟨yes, divider, _, rfl, hy, hd, no, closer, rest, rfl, hno, hc, after⟩
        · have block := after.extend (ifThen p yes closer) (p :: (yes.items ++ [closer]))
            (by simp [items])
            fun _ fits => ⟨kind, hy, hc, fits⟩
          simpa using block
        · have block := after.extend (ifElse p yes divider no closer)
            (p :: (yes.items ++ divider :: (no.items ++ [closer]))) (by simp [items])
            fun _ fits => ⟨kind, hy, hd, hno, hc, fits⟩
          simpa using block
      | divides =>
        rcases pending with _ | ⟨_ | _, outer⟩
        · simp [Marker.paired] at h
        · exact .inr ⟨done, p, ps, rfl, trivial, kind, ih (true :: outer) h⟩
        · simp [Marker.paired] at h
      | closes =>
        rcases pending with _ | ⟨_ | _, outer⟩
        · simp [Marker.paired] at h
        · exact .inl ⟨done, p, ps, rfl, trivial, kind, ih outer h⟩
        · exact ⟨done, p, ps, rfl, trivial, kind, ih outer h⟩

/-- Markers pair up exactly where the pieces are those of a script. -/
theorem exists_items_iff (ps : List Piece) :
    (∃ s : Script, s.items = ps ∧ s.Fits) ↔ Marker.paired [] (ps.filterMap marker?) = true := by
  constructor
  · rintro ⟨s, rfl, fits⟩
    have pairs := paired_items fits [] []
    rw [List.append_nil] at pairs
    exact pairs
  · exact finishes_of_paired ps []

/-- Whether a script is the structure of a template. -/
structure Reads (s : Script) (t : Text) : Prop where
  separated : Separated s.items
  text : textOf s.items = t
  fits : s.Fits
  inside : ∀ inner, .span inner ∈ s.items → Accepted inner

theorem Reads.accepted {s : Script} {t : Text} (h : s.Reads t) : Accepted t := by
  rw [← h.text, h.separated.accepted_iff]
  exact ⟨(exists_items_iff _).mp ⟨s, rfl, h.fits⟩, h.inside⟩

theorem exists_reads {t : Text} (h : Accepted t) : ∃ s : Script, s.Reads t := by
  obtain ⟨ps, separated, rfl⟩ := exists_separated h.balanced
  obtain ⟨pairs, inside⟩ := separated.accepted_iff.mp h
  obtain ⟨s, rfl, fits⟩ := (exists_items_iff ps).mpr pairs
  exact ⟨s, separated, rfl, fits, inside⟩

end Script

end ChatCommands
