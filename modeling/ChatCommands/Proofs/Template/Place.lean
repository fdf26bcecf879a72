import ChatCommands.Proofs.Template.Layout

/-!
Where the pieces of a template stand in its arena.

A template of separated pieces has the arenas of its pieces one behind the other. A place counts
the slots and the regions before a piece.
-/

namespace ChatCommands

open Span

/-- What holds of an arena before anything is written. -/
structure Arena.Tidy (a : Arena) : Prop where
  numbered : ∀ (i : Nat) (r : Region), a.regions[i]? = some r → r.index = i
  bounds : ∀ r ∈ a.regions, r.first ≤ r.last ∧ r.last < a.slots.length
  unwritten : ∀ r ∈ a.regions, r.void = false

namespace Arena

def empty : Arena :=
  ⟨[], []⟩

theorem empty_append (a : Arena) : empty ++ a = a := by
  change Arena.mk _ _ = a
  simp [empty, Region.shift_zero]

theorem append_empty (a : Arena) : a ++ empty = a := by
  change Arena.mk _ _ = a
  simp [empty]

theorem append_assoc (a b c : Arena) : a ++ b ++ c = a ++ (b ++ c) := by
  change Arena.mk _ _ = Arena.mk _ _
  simp [List.map_map, Function.comp_def, Region.shift_shift]

theorem Tidy.append {a b : Arena} (ha : a.Tidy) (hb : b.Tidy) : (a ++ b).Tidy := by
  constructor
  · intro i r h
    rw [regions_append, List.getElem?_append] at h
    split at h
    · exact ha.numbered i r h
    · rename_i after
      rw [List.getElem?_map, Option.map_eq_some_iff] at h
      obtain ⟨q, hq, rfl⟩ := h
      have := hb.numbered _ q hq
      simp only [Region.shift]
      omega
  · intro r h
    rw [regions_append, List.mem_append, List.mem_map] at h
    rw [slots_append, List.length_append]
    rcases h with h | ⟨q, hq, rfl⟩
    · have := ha.bounds r h
      omega
    · have := hb.bounds q hq
      simp only [Region.shift]
      omega
  · intro r h
    rw [regions_append, List.mem_append, List.mem_map] at h
    rcases h with h | ⟨q, hq, rfl⟩
    · exact ha.unwritten r h
    · exact hb.unwritten q hq

theorem tidy_fresh {t : Text} (h : Balanced t) : (fresh t).Tidy := by
  constructor
  · intro i r hr
    rw [fresh_regions, List.getElem?_mapIdx, Option.map_eq_some_iff] at hr
    obtain ⟨s, _, rfl⟩ := hr
    rfl
  · intro r hr
    rw [fresh_regions, List.mem_mapIdx] at hr
    obtain ⟨i, hi, rfl⟩ := hr
    exact regionOf_bounds h (List.getElem_mem hi) i
  · intro r hr
    rw [fresh_regions, List.mem_mapIdx] at hr
    obtain ⟨i, hi, rfl⟩ := hr
    rfl

theorem fresh_flat {u : Text} (nonempty : u ≠ []) (flat : Brace.ofText u = []) :
    fresh u = ⟨[⟨u, false⟩], []⟩ := by
  have none := spans_flat flat
  have edges : innerCuts u = [0] := by
    obtain ⟨n, hn⟩ := Nat.exists_eq_succ_of_ne_zero (by simpa using nonempty : u.length ≠ 0)
    rw [innerCuts, hn, List.range_succ_eq_map, List.filter_cons_of_pos (by simp [isCut])]
    rw [List.filter_eq_nil_iff.mpr]
    intro p hp
    obtain ⟨q, hq, rfl⟩ := List.mem_map.mp hp
    have := List.mem_range.mp hq
    simp only [isCut, none, hn]
    simp
    omega
  have slots : (fresh u).slots = [⟨u, false⟩] := by
    rw [fresh_slots, cuts_eq, edges]
    simp [slotsBetween, Text.slice]
  have regions : (fresh u).regions = [] := by simp [fresh_regions, none]
  change Arena.mk (fresh u).slots (fresh u).regions = _
  rw [slots, regions]

theorem fresh_nil : fresh [] = empty := rfl

theorem fresh_span {inner : Text} (h : Closed inner) :
    0 < (fresh (Text.braced inner)).slots.length ∧
    ∃ nested, (fresh (Text.braced inner)).regions =
        ⟨0, 0, (fresh (Text.braced inner)).slots.length - 1, none, 0, false⟩ :: nested ∧
      ∀ r ∈ nested, r.parent ≠ none := by
  obtain ⟨rest, start⟩ := cuts_start (Text.braced inner)
  have last : (cuts (Text.braced inner) (spans (Text.braced inner))).idxOf
      (inner.length + 2) = (fresh (Text.braced inner)).slots.length := by
    have outside : inner.length + 2 ∉ innerCuts (Text.braced inner) := fun member => by
      have := innerCuts_lt member
      simp at this
    rw [slots_length_fresh, cuts_eq, List.idxOf_append, if_neg outside, Text.length_braced]
    simp
  have first : (cuts (Text.braced inner) (spans (Text.braced inner))).idxOf 0 = 0 := by
    simp [start]
  have head : (⟨0, inner.length + 2, none, 0⟩ : Span) ∈ spans (Text.braced inner) := by
    simp [spans_span h]
  have bounds := regionOf_bounds h.span.balanced head 0
  have regions : (fresh (Text.braced inner)).regions =
      ⟨0, 0, (fresh (Text.braced inner)).slots.length - 1, none, 0, false⟩ ::
        ((spans inner).map (under [0] 1 1)).mapIdx fun i =>
          regionOf (cuts (Text.braced inner) (spans (Text.braced inner))) (i + 1) := by
    have place : regionOf (cuts (Text.braced inner) (spans (Text.braced inner))) 0
        ⟨0, inner.length + 2, none, 0⟩ =
          ⟨0, 0, (fresh (Text.braced inner)).slots.length - 1, none, 0, false⟩ := by
      simp only [regionOf, first, last]
    rw [← place, fresh_regions]
    generalize cuts (Text.braced inner) (spans (Text.braced inner)) = edges
    rw [spans_span h, List.mapIdx_cons]
  refine ⟨by omega, _, regions, ?_⟩
  intro r hr
  obtain ⟨i, hi, rfl⟩ := List.mem_mapIdx.mp hr
  rw [List.length_map] at hi
  cases hp : (spans inner)[i].parent <;> simp [regionOf, under, hp]

end Arena

namespace Piece

/-- Whether a piece is one of some separated pieces. -/
def Valid : Piece → Prop
  | plain u => u ≠ [] ∧ Brace.ofText u = []
  | span inner => Closed inner

theorem Separated.valid {ps : List Piece} (h : Separated ps) : ∀ p ∈ ps, p.Valid := by
  induction h with
  | nil => simp
  | last nonempty flat => simpa [Valid] using ⟨nonempty, flat⟩
  | plain nonempty flat _ _ ih => exact List.forall_mem_cons.mpr ⟨⟨nonempty, flat⟩, ih⟩
  | span hi _ ih => exact List.forall_mem_cons.mpr ⟨hi, ih⟩

theorem Valid.balanced {p : Piece} (h : p.Valid) : Balanced p.text := by
  cases p with
  | plain u => exact balanced_of_flat h.2
  | span inner => exact (Closed.span h).balanced

/-- The arenas of some pieces one behind the other. -/
def layout : List Piece → Arena
  | [] => .empty
  | p :: ps => .fresh p.text ++ layout ps

theorem layout_append (ps qs : List Piece) : layout (ps ++ qs) = layout ps ++ layout qs := by
  induction ps with
  | nil => exact (Arena.empty_append _).symm
  | cons p ps ih => rw [List.cons_append, layout, layout, ih, Arena.append_assoc]

theorem tidy_layout {ps : List Piece} (valid : ∀ p ∈ ps, p.Valid) : (layout ps).Tidy := by
  induction ps with
  | nil => constructor <;> simp [layout, Arena.empty]
  | cons p ps ih =>
    have h := List.forall_mem_cons.mp valid
    exact (Arena.tidy_fresh h.1.balanced).append (ih h.2)

theorem isCut_seam {s t : Text} (hs : Closed s) (ht : Balanced t) {a : Span}
    (edge : a ∈ spans s ∧ a.stop = s.length ∨ a ∈ spans t ∧ a.start = 0) :
    Arena.isCut (s ++ t) s.length = true := by
  have found : (spans (s ++ t)).any
      (fun a => a.start == s.length || a.stop == s.length) = true := by
    rw [spans_append hs ht, List.any_eq_true]
    rcases edge with ⟨member, stop⟩ | ⟨member, start⟩
    · exact ⟨a, List.mem_append_left _ member, by simp [stop]⟩
    · exact ⟨_, List.mem_append_right _ (List.mem_map_of_mem member), by simp [under, start]⟩
  simp only [Arena.isCut, found, Bool.or_true]

theorem mem_spans_span {inner t : Text} (hi : Closed inner) (ht : Balanced t) :
    (⟨0, inner.length + 2, none, 0⟩ : Span) ∈ spans (Text.braced inner ++ t) := by
  simp [spans_append hi.span ht, spans_span hi]

theorem Separated.fresh_textOf {ps : List Piece} (h : Separated ps) :
    Arena.fresh (textOf ps) = layout ps := by
  induction h with
  | nil => exact Arena.fresh_nil
  | last => simp [layout, textOf, Arena.append_empty]
  | @plain u inner ps nonempty flat whole hs ih =>
    have rest := hs.balanced
    have head : (⟨0, inner.length + 2, none, 0⟩ : Span) ∈ spans (textOf (.span inner :: ps)) :=
      mem_spans_span (hs.closed_inner (by simp)) hs.tail.balanced
    have hu := closed_of_flat flat whole
    rw [textOf_cons, layout, ← ih]
    exact Arena.fresh_append hu rest (isCut_seam hu rest (.inr ⟨head, rfl⟩))
  | @span inner ps hi hs ih =>
    have head : (⟨0, inner.length + 2, none, 0⟩ : Span) ∈ spans (Piece.span inner).text := by
      simp [text, spans_span hi]
    rw [textOf_cons, layout, ← ih]
    exact Arena.fresh_append hi.span hs.balanced
      (isCut_seam hi.span hs.balanced (.inl ⟨head, by simp [text]⟩))

end Piece

end ChatCommands
