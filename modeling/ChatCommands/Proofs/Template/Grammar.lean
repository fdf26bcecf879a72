import Mathlib.Data.List.Perm.Basic
import ChatCommands.Proofs.Expr.Reading
import ChatCommands.Proofs.Template.Laminar
import ChatCommands.Proofs.Template.Pairing

/-!
The grammar of markers, and the blocks that a group of siblings has by it.

Markers that form a word bound blocks in one way only, and that is the way in which they are paired.
-/

namespace ChatCommands

open Span

namespace Marker

/-- The words `B ::= empty | if B fi B | if B else B fi B` over the kinds of markers. -/
inductive Word : List Marker → Prop where
  | empty : Word []
  | whole {yes next : List Marker} : Word yes → Word next →
      Word (.opens :: (yes ++ .closes :: next))
  | divided {yes no next : List Marker} : Word yes → Word no → Word next →
      Word (.opens :: (yes ++ .divides :: (no ++ .closes :: next)))

theorem Word.paired_append {ms : List Marker} (h : Word ms) (pending : List Bool)
    (rest : List Marker) : paired pending (ms ++ rest) = paired pending rest := by
  induction h generalizing pending rest with
  | empty => rfl
  | whole _ _ ih_yes ih =>
    simp only [List.cons_append, List.append_assoc, paired, ih_yes, ih]
  | divided _ _ _ ih_yes ih_no ih =>
    simp only [List.cons_append, List.append_assoc, paired, ih_yes, ih_no, ih]

/-- A span that is a marker of this kind. -/
def piece : Marker → Piece
  | opens => .span "if".toList
  | divides => .span "else".toList
  | closes => .span "fi".toList

theorem marker?_piece (m : Marker) : m.piece.marker? = some m := by
  cases m <;> rfl

end Marker

theorem Script.word {s : Script} (fits : s.Fits) :
    Marker.Word (s.items.filterMap Piece.marker?) := by
  induction s with
  | done => exact .empty
  | leaf p next ih =>
    simp only [items, List.filterMap_cons, fits.1]
    exact ih fits.2
  | ifThen opener yes closer next ih_yes ih =>
    obtain ⟨ho, hy, hc, hn⟩ := fits
    simp only [items, List.filterMap_cons, List.filterMap_append, ho, hc]
    exact .whole (ih_yes hy) (ih hn)
  | ifElse opener yes divider no closer next ih_yes ih_no ih =>
    obtain ⟨ho, hy, hd, hno, hc, hn⟩ := fits
    simp only [items, List.filterMap_cons, List.filterMap_append, ho, hd, hc]
    exact .divided (ih_yes hy) (ih_no hno) (ih hn)

theorem Marker.word_iff {ms : List Marker} : Word ms ↔ paired [] ms = true := by
  constructor
  · intro h
    have pairs := h.paired_append [] []
    rwa [List.append_nil] at pairs
  · intro pairs
    have kinds : (ms.map piece).filterMap Piece.marker? = ms := by
      rw [List.filterMap_map, Function.comp_def]
      simp only [marker?_piece, List.filterMap_some]
    obtain ⟨s, items, fits⟩ := (Script.exists_items_iff (ms.map piece)).mpr (kinds.symm ▸ pairs)
    rw [← kinds, ← items]
    exact s.word fits

namespace Block

/-- The markers of a block, each with its kind. -/
def members (b : Block) : List (Region × Marker) :=
  (b.opener, .opens) :: (b.divider.toList.map (·, .divides) ++ [(b.closer, .closes)])

/-- The markers on both sides of each branch of a block. -/
def branches (b : Block) : List (Region × Region) :=
  match b.divider with
  | none => [(b.opener, b.closer)]
  | some divider => [(b.opener, divider), (divider, b.closer)]

/-- Markers that form a word, with the blocks that it has in the order of closing. -/
inductive Bracketed : List (Region × Marker) → List Block → Prop where
  | empty : Bracketed [] []
  | whole {opener closer : Region} {yes next : List (Region × Marker)} {ys ns : List Block} :
      Bracketed yes ys → Bracketed next ns →
      Bracketed ((opener, .opens) :: (yes ++ (closer, .closes) :: next))
        (ys ++ ⟨opener, none, closer⟩ :: ns)
  | divided {opener divider closer : Region} {yes no next : List (Region × Marker)}
      {ys zs ns : List Block} : Bracketed yes ys → Bracketed no zs → Bracketed next ns →
      Bracketed
        ((opener, .opens) :: (yes ++ (divider, .divides) :: (no ++ (closer, .closes) :: next)))
        (ys ++ (zs ++ ⟨opener, some divider, closer⟩ :: ns))

theorem exists_bracketed {ms : List Marker} (word : Marker.Word ms) {found : List (Region × Marker)}
    (kinds : found.map Prod.snd = ms) : ∃ blocks, Bracketed found blocks := by
  induction word generalizing found with
  | empty =>
    rw [List.map_eq_nil_iff.mp kinds]
    exact ⟨_, .empty⟩
  | whole _ _ ih_yes ih =>
    obtain ⟨⟨opener, _⟩, tail, rfl, rfl, rest⟩ := List.map_eq_cons_iff.mp kinds
    obtain ⟨yes, ⟨closer, _⟩, next, rfl, hy, rfl, hn⟩ := map_eq_append_cons rest
    obtain ⟨ys, inside⟩ := ih_yes hy
    obtain ⟨ns, behind⟩ := ih hn
    exact ⟨_, .whole inside behind⟩
  | divided _ _ _ ih_yes ih_no ih =>
    obtain ⟨⟨opener, _⟩, tail, rfl, rfl, rest⟩ := List.map_eq_cons_iff.mp kinds
    obtain ⟨yes, ⟨divider, _⟩, tail, rfl, hy, rfl, other⟩ := map_eq_append_cons rest
    obtain ⟨no, ⟨closer, _⟩, next, rfl, hno, rfl, hn⟩ := map_eq_append_cons other
    obtain ⟨ys, inside⟩ := ih_yes hy
    obtain ⟨zs, inside'⟩ := ih_no hno
    obtain ⟨ns, behind⟩ := ih hn
    exact ⟨_, .divided inside inside' behind⟩

namespace Bracketed

variable {found : List (Region × Marker)} {blocks : List Block}

theorem ofSiblings_append (h : Bracketed found blocks) (a : Arena)
    (pending : List (Region × Option Region)) (rest : List (Region × Marker)) :
    ofSiblings a pending (found ++ rest) = (ofSiblings a pending rest).map (blocks ++ ·) := by
  -- A branch is a word of its own, so at its end the same blocks are pending as before it.
  induction h generalizing pending rest with
  | empty => cases h : ofSiblings a pending rest <;> simp [h, Except.map]
  | whole _ _ ih_yes ih =>
    simp only [List.cons_append, List.append_assoc]
    rw [ofSiblings, ih_yes, ofSiblings, ih]
    cases ofSiblings a pending rest <;> simp [Except.map, bind, Except.bind, pure, Except.pure]
  | divided _ _ _ ih_yes ih_no ih =>
    simp only [List.cons_append, List.append_assoc]
    rw [ofSiblings, ih_yes, ofSiblings, ih_no, ofSiblings, ih]
    cases ofSiblings a pending rest <;> simp [Except.map, bind, Except.bind, pure, Except.pure]

theorem ofSiblings_eq (h : Bracketed found blocks) (a : Arena) :
    ofSiblings a [] found = .ok blocks := by
  have run := h.ofSiblings_append a [] []
  rw [List.append_nil] at run
  rw [run, ofSiblings, Except.map, List.append_nil]

/-- Each marker is in one block. -/
theorem perm (h : Bracketed found blocks) : (blocks.flatMap members).Perm found := by
  rw [List.perm_iff_count]
  intro m
  induction h with
  | empty => rfl
  | whole _ _ ih_yes ih =>
    simp only [List.flatMap_append, List.flatMap_cons, members, List.count_append,
      List.count_cons, List.count_nil, Option.toList_none, List.map_nil, ih_yes, ih]
    omega
  | divided _ _ _ ih_yes ih_no ih =>
    simp only [List.flatMap_append, List.flatMap_cons, members, List.count_append,
      List.count_cons, List.count_nil, Option.toList_some, List.map_cons, List.map_nil, ih_yes,
      ih_no, ih]
    omega

/-- The markers of a block stand in the order of its kinds. -/
theorem sublist (h : Bracketed found blocks) {b : Block} (member : b ∈ blocks) :
    b.members.Sublist found := by
  induction h with
  | empty => cases member
  | @whole opener closer yes next ys ns _ _ ih_yes ih =>
    have last : ((closer, Marker.closes) :: next).Sublist (yes ++ (closer, .closes) :: next) :=
      List.sublist_append_right ..
    rcases List.mem_append.mp member with inside | outside
    · exact ((ih_yes inside).trans (List.sublist_append_left ..)).cons _
    · rcases List.mem_cons.mp outside with rfl | behind
      · exact .cons_cons _ (.trans (.cons_cons _ (List.nil_sublist next)) last)
      · exact (((ih behind).cons _).trans last).cons _
  | @divided opener divider closer yes no next ys zs ns _ _ _ ih_yes ih_no ih =>
    have last : ((closer, Marker.closes) :: next).Sublist (no ++ (closer, .closes) :: next) :=
      List.sublist_append_right ..
    have middle : ((divider, Marker.divides) :: (no ++ (closer, .closes) :: next)).Sublist
        (yes ++ (divider, .divides) :: (no ++ (closer, .closes) :: next)) :=
      List.sublist_append_right ..
    rcases List.mem_append.mp member with inside | outside
    · exact ((ih_yes inside).trans (List.sublist_append_left ..)).cons _
    · rcases List.mem_append.mp outside with inside | outside
      · have within := (ih_no inside).trans
          (List.sublist_append_left no ((closer, .closes) :: next))
        exact ((within.cons _).trans middle).cons _
      · rcases List.mem_cons.mp outside with rfl | behind
        · have pair := List.Sublist.trans (.cons_cons _ (List.nil_sublist next)) last
          exact .cons_cons _ ((pair.cons_cons _).trans middle)
        · exact (((((ih behind).cons _).trans last).cons _).trans middle).cons _

theorem opener_mem (h : Bracketed found blocks) {b : Block} (member : b ∈ blocks) :
    (b.opener, .opens) ∈ found :=
  (h.sublist member).subset List.mem_cons_self

theorem closer_mem (h : Bracketed found blocks) {b : Block} (member : b ∈ blocks) :
    (b.closer, .closes) ∈ found :=
  (h.sublist member).subset (by simp [members])

/-- A block that is closed before another ends before the other begins, or lies in one of its
branches. -/
theorem apart {R : Region → Region → Prop} (h : Bracketed found blocks)
    (order : found.Pairwise fun m n => R m.1 n.1) :
    blocks.Pairwise fun b c =>
      R b.closer c.opener ∨ ∃ x ∈ c.branches, R x.1 b.opener ∧ R b.closer x.2 := by
  induction h with
  | empty => exact .nil
  | @whole opener closer yes next ys ns inside behind ih_yes ih =>
    obtain ⟨first, order⟩ := List.pairwise_cons.mp order
    obtain ⟨order_yes, order, across⟩ := List.pairwise_append.mp order
    obtain ⟨last, order⟩ := List.pairwise_cons.mp order
    obtain ⟨in_yes, before_yes⟩ := List.forall_mem_append.mp first
    refine List.pairwise_append.mpr ⟨ih_yes order_yes, .cons ?_ (ih order), ?_⟩
    · exact fun c hc => .inl (last _ (behind.opener_mem hc))
    · intro b hb
      have after := across _ (inside.closer_mem hb)
      refine List.forall_mem_cons.mpr ⟨.inr ⟨_, List.mem_singleton_self _, ?_, ?_⟩, ?_⟩
      · exact in_yes _ (inside.opener_mem hb)
      · exact after _ List.mem_cons_self
      · exact fun c hc => .inl (after _ (List.mem_cons_of_mem _ (behind.opener_mem hc)))
  | @divided opener divider closer yes no next ys zs ns inside inside' behind ih_yes ih_no ih =>
    obtain ⟨first, order⟩ := List.pairwise_cons.mp order
    obtain ⟨order_yes, order, across⟩ := List.pairwise_append.mp order
    obtain ⟨middle, order⟩ := List.pairwise_cons.mp order
    obtain ⟨order_no, order, across'⟩ := List.pairwise_append.mp order
    obtain ⟨last, order⟩ := List.pairwise_cons.mp order
    obtain ⟨in_yes, -⟩ := List.forall_mem_append.mp first
    obtain ⟨in_no, -⟩ := List.forall_mem_append.mp middle
    refine List.pairwise_append.mpr ⟨ih_yes order_yes,
      List.pairwise_append.mpr ⟨ih_no order_no, .cons ?_ (ih order), ?_⟩, ?_⟩
    · exact fun c hc => .inl (last _ (behind.opener_mem hc))
    · intro b hb
      have after := across' _ (inside'.closer_mem hb)
      refine List.forall_mem_cons.mpr
        ⟨.inr ⟨_, List.mem_cons_of_mem _ (List.mem_singleton_self _), ?_, ?_⟩, ?_⟩
      · exact in_no _ (inside'.opener_mem hb)
      · exact after _ List.mem_cons_self
      · exact fun c hc => .inl (after _ (List.mem_cons_of_mem _ (behind.opener_mem hc)))
    · intro b hb
      have after := across _ (inside.closer_mem hb)
      obtain ⟨until_divider, after⟩ := List.forall_mem_cons.mp after
      obtain ⟨to_no, after⟩ := List.forall_mem_append.mp after
      obtain ⟨_, to_next⟩ := List.forall_mem_cons.mp after
      refine List.forall_mem_append.mpr ⟨?_, List.forall_mem_cons.mpr ⟨.inr ?_, ?_⟩⟩
      · exact fun c hc => .inl (to_no _ (inside'.opener_mem hc))
      · exact ⟨_, List.mem_cons_self, in_yes _ (inside.opener_mem hb), until_divider⟩
      · exact fun c hc => .inl (to_next _ (behind.opener_mem hc))

end Bracketed

theorem bracketed_of_ofSiblings {a : Arena} {found : List (Region × Marker)} {blocks : List Block}
    (h : ofSiblings a [] found = .ok blocks) : Bracketed found blocks := by
  -- The kinds form a word, the word gives blocks, and pairing has one result only.
  have pairs := (ofSiblings_accepts a found []).mp ⟨blocks, h⟩
  obtain ⟨others, bracketed⟩ := exists_bracketed (Marker.word_iff.mpr pairs) rfl
  rw [bracketed.ofSiblings_eq a] at h
  cases h
  exact bracketed


end Block

end ChatCommands
