import Mathlib
import ChatCommands.Proofs.Template.Cutting
import ChatCommands.Proofs.Template.Ranges

/-!
What holds of a template while its regions are replaced and its blocks resolved, in any order.

No write cuts a region in two. So a region is either covered by a write or keeps the two slots in
which its braces stand.
-/

namespace ChatCommands

open Span

namespace Text

theorem head?_slice {t : Text} {a b : Nat} (some : a < b) : (t.slice a b).head? = t[a]? := by
  rw [slice, List.head?_drop, List.getElem?_take_of_lt some]

theorem getLast?_slice {t : Text} {a b : Nat} (some : a < b) (inside : b ≤ t.length) :
    (t.slice a b).getLast? = t[b - 1]? := by
  have length : (t.slice a b).length = b - a := by
    rw [slice, List.length_drop, List.length_take, Nat.min_eq_left inside]
  have last : a + (b - a - 1) = b - 1 := by omega
  rw [List.getLast?_eq_getElem?, length, slice, List.getElem?_drop, last,
    List.getElem?_take_of_lt (by omega)]

end Text

/-- Where a span begins and ends there are its braces. -/
theorem Balanced.edges {t : Text} (h : Balanced t) {s : Span} (member : s ∈ spans t) :
    t[s.start]? = some '{' ∧ t[s.stop - 1]? = some '}' := by
  obtain ⟨before, after, split⟩ := List.append_of_mem member
  obtain ⟨front, inner, rest, cut⟩ := h.exists_cut split
  have stop : s.stop - 1 = front.length + (inner.length + 1) := by
    rw [cut.stop]
    omega
  rw [cut.text, cut.start, stop]
  simp [Text.braced]

namespace Arena

theorem slot_fresh {t : Text} {k : Nat} (inside : k + 1 < (cuts t (spans t)).length) :
    (fresh t).slots[k]? =
      some ⟨t.slice (cuts t (spans t))[k] (cuts t (spans t))[k + 1], false⟩ := by
  have count : k < (fresh t).slots.length := by
    rw [fresh_slots, slotsBetween_length]
    omega
  rw [List.getElem?_eq_getElem count]
  simp [fresh_slots, slotsBetween]

/-- A region of a template has its braces in its first and in its last slot. -/
theorem braces_fresh {t : Text} (h : Balanced t) {r : Region} (hr : r ∈ (fresh t).regions) :
    (∃ s, (fresh t).slots[r.first]? = some s ∧ s.text.head? = some '{') ∧
      ∃ s, (fresh t).slots[r.last]? = some s ∧ s.text.getLast? = some '}' := by
  rw [fresh_regions, List.mem_mapIdx] at hr
  obtain ⟨i, hi, rfl⟩ := hr
  have member := List.getElem_mem hi
  have first := start_mem_cuts h member
  have last := stop_mem_cuts h member
  have within := h.ordered.within _ member
  have before := idxOf_lt_idxOf (cuts_sorted t) first last within.1
  have reached := List.idxOf_lt_length_of_mem last
  have braces := h.edges member
  simp only [regionOf]
  constructor
  · refine ⟨_, slot_fresh (by omega), ?_⟩
    have low := List.getElem_idxOf (List.idxOf_lt_length_of_mem first)
    have room := List.pairwise_iff_getElem.mp (cuts_sorted t)
      ((cuts t (spans t)).idxOf (spans t)[i].start) _ (by omega) (by omega) (Nat.lt_succ_self _)
    rw [Text.head?_slice room, low, braces.1]
  · have next : (cuts t (spans t)).idxOf (spans t)[i].stop - 1 + 1 =
        (cuts t (spans t)).idxOf (spans t)[i].stop := by omega
    refine ⟨_, slot_fresh (by omega), ?_⟩
    have high := List.getElem_idxOf reached
    have room := List.pairwise_iff_getElem.mp (cuts_sorted t)
      ((cuts t (spans t)).idxOf (spans t)[i].stop - 1) _ (by omega) reached (by omega)
    simp only [next, high] at room ⊢
    rw [Text.getLast?_slice room within.2, braces.2]

theorem unwritten_fresh {t : Text} {k : Nat} {s : Slot} (h : (fresh t).slots[k]? = some s) :
    s.written = false := by
  have member := List.mem_of_getElem? h
  rw [fresh_slots, slotsBetween, List.mem_map] at member
  obtain ⟨_, _, rfl⟩ := member
  rfl

section Ends

variable {a : Arena} {r : Region} {s : Slot} {c : Char} (order : r.first ≤ r.last)
include order

theorem head?_regionText (slot : a.slots[r.first]? = some s) (head : s.text.head? = some c) :
    (a.regionText r).head? = some c := by
  have front : (a.slots.take (r.last + 1))[r.first]? = some s := by
    rw [List.getElem?_take_of_lt (by omega), slot]
  obtain ⟨reached, rfl⟩ := List.getElem?_eq_some_iff.mp front
  rw [regionText, List.drop_eq_getElem_cons reached, List.flatMap_cons, List.head?_append, head,
    Option.some_or]

theorem getLast?_regionText (slot : a.slots[r.last]? = some s) (last : s.text.getLast? = some c) :
    (a.regionText r).getLast? = some c := by
  obtain ⟨reached, rfl⟩ := List.getElem?_eq_some_iff.mp slot
  have split : a.slots.take (r.last + 1) = a.slots.take r.last ++ [a.slots[r.last]] :=
    List.take_succ_eq_append_getElem reached
  have long : r.first ≤ (a.slots.take r.last).length := by
    rw [List.length_take]
    omega
  rw [regionText, split, List.drop_append_of_le_length long, List.flatMap_append,
    List.flatMap_singleton, List.getLast?_append, last, Option.some_or]

end Ends

theorem offset_le_offset (a : Arena) {j k : Nat} (order : j ≤ k) : a.offset j ≤ a.offset k := by
  rw [a.offset_between order]
  exact Nat.le_add_right _ _

/-- A slot with text keeps the offsets before it and behind it apart. -/
theorem offset_lt_offset {a : Arena} {k : Nat} {s : Slot} {c : Char} (slot : a.slots[k]? = some s)
    (some : c ∈ s.text) {j l : Nat} (before : j ≤ k) (behind : k < l) :
    a.offset j < a.offset l := by
  have grows : a.offset k < a.offset (k + 1) := by
    obtain ⟨reached, rfl⟩ := List.getElem?_eq_some_iff.mp slot
    rw [offset_eq, offset_eq, List.take_succ_eq_append_getElem reached, List.flatMap_append,
      List.length_append, List.flatMap_singleton]
    have := List.length_pos_of_mem some
    omega
  have low := a.offset_le_offset before
  have high : a.offset (k + 1) ≤ a.offset l := a.offset_le_offset behind
  omega

/-- What an arena shows of the writes since it was `a₀`. -/
structure Logged (a₀ a : Arena) (log : List (Nat × Nat)) : Prop where
  count : a.slots.length = a₀.slots.length
  slots : ∀ k s, a.slots[k]? = some s →
    (∃ w ∈ log, Touches w k) ∧ s.written = true ∨
      (∀ w ∈ log, ¬ Touches w k) ∧ a₀.slots[k]? = some s
  regions : a.regions.map (fun r => { r with void := false }) = a₀.regions
  void : ∀ r ∈ a.regions, r.void = true ↔ ∃ w ∈ log, Covers w r
  uncut : ∀ w ∈ log, a₀.Uncut w

namespace Logged

variable {a₀ a : Arena} {log : List (Nat × Nat)}

theorem start (tidy : a₀.Tidy) : Logged a₀ a₀ [] := by
  refine ⟨rfl, fun k s slot => .inr ⟨by simp, slot⟩, ?_, fun r hr => ?_, by simp⟩
  · refine (List.map_congr_left fun r hr => ?_).trans (List.map_id _)
    rw [id, ← tidy.unwritten r hr]
  · simp [tidy.unwritten r hr]

theorem write (h : Logged a₀ a log) {w : Nat × Nat} (uncut : a₀.Uncut w) (new : Text) :
    Logged a₀ (a.write w.1 w.2 new) (log ++ [w]) := by
  constructor
  · rw [slots_length_write, h.count]
  · intro k s slot
    rw [Arena.write, List.getElem?_mapIdx, Option.map_eq_some_iff] at slot
    obtain ⟨old, slot, rfl⟩ := slot
    have order := uncut.order
    by_cases touched : Touches w k
    · refine .inl ⟨⟨w, by simp, touched⟩, ?_⟩
      obtain ⟨low, high⟩ := touched
      by_cases first : k = w.1
      · rw [if_pos first]
      · rw [if_neg first, if_pos ⟨by omega, high⟩]
    · have other : k ≠ w.1 := fun same => touched ⟨by omega, by omega⟩
      have outside : ¬ (w.1 < k ∧ k ≤ w.2) := fun h => touched ⟨by omega, h.2⟩
      rw [if_neg other, if_neg outside]
      rcases h.slots k old slot with ⟨⟨v, hv, hit⟩, written⟩ | ⟨missed, same⟩
      · exact .inl ⟨⟨v, List.mem_append_left _ hv, hit⟩, written⟩
      · refine .inr ⟨List.forall_mem_append.mpr ⟨missed, ?_⟩, same⟩
        exact List.forall_mem_singleton.mpr touched
  · rw [← h.regions, Arena.write, List.map_map]
    rfl
  · intro r hr
    obtain ⟨q, hq, rfl⟩ := List.mem_map.mp hr
    have before := h.void q hq
    simp only [Bool.or_eq_true, decide_eq_true_eq, List.mem_append, List.mem_singleton,
      or_and_right, exists_or, exists_eq_left]
    exact or_congr before Iff.rfl
  · exact List.forall_mem_append.mpr ⟨h.uncut, List.forall_mem_singleton.mpr uncut⟩

theorem foldl (h : Logged a₀ a log) {ws : List (Nat × Nat)} (uncut : ∀ w ∈ ws, a₀.Uncut w) :
    Logged a₀ (ws.foldl (fun a w => a.write w.1 w.2 []) a) (log ++ ws) := by
  induction ws generalizing a log with
  | nil =>
    rw [List.append_nil]
    exact h
  | cons w ws ih =>
    obtain ⟨first, rest⟩ := List.forall_mem_cons.mp uncut
    have next := ih (h.write first []) rest
    rw [List.append_assoc] at next
    exact next

variable (h : Logged a₀ a log) {r : Region}
include h

theorem region (hr : r ∈ a.regions) : { r with void := false } ∈ a₀.regions :=
  h.regions ▸ List.mem_map_of_mem hr

theorem within (within : a₀.Within) : a.Within := fun r hr => by
  rw [h.count]
  exact within { r with void := false } (h.region hr)

/-- No write has reached the two ends of a region that is live. -/
theorem ends (within : a₀.Within) (hr : r ∈ a.live) {w : Nat × Nat} (hw : w ∈ log) :
    ¬ Touches w r.first ∧ ¬ Touches w r.last := by
  obtain ⟨hr, live⟩ := List.mem_filter.mp hr
  have bounds := h.within within r hr
  have uncovered : ¬ Covers w r := fun covered => by
    rw [(h.void r hr).mpr ⟨w, hw, covered⟩] at live
    cases live
  simp only [Touches]
  rcases (h.uncut w hw).spares _ (h.region hr) with covered | ahead | behind | around
  · exact absurd covered uncovered
  · simp only at ahead
    omega
  · simp only at behind
    omega
  · simp only at around
    omega

theorem slot_eq {k : Nat} (inside : k < a.slots.length) (missed : ∀ w ∈ log, ¬ Touches w k) :
    a.slots[k]? = a₀.slots[k]? := by
  rw [List.getElem?_eq_getElem inside]
  rcases h.slots k _ (List.getElem?_eq_getElem inside) with ⟨⟨w, hw, hit⟩, _⟩ | ⟨_, same⟩
  · exact absurd hit (missed w hw)
  · exact same.symm

theorem apart (laminar : a₀.Laminar) :
    a.regions.Pairwise fun r q => r.last < q.first ∨ r.Encloses q := by
  have apart := laminar.apart
  rw [← h.regions, List.pairwise_map] at apart
  exact apart

end Logged

/-- The slots at the two ends of a live region are those of the template. -/
theorem Logged.braces {t : Text} (balanced : Balanced t) {a : Arena} {log : List (Nat × Nat)}
    (logged : Logged (fresh t) a log) {r : Region} (hr : r ∈ a.live) :
    (∃ s, a.slots[r.first]? = some s ∧ s.text.head? = some '{') ∧
      ∃ s, a.slots[r.last]? = some s ∧ s.text.getLast? = some '}' := by
  have within := within_fresh balanced
  have member := List.mem_of_mem_filter hr
  have bounds := logged.within within r member
  have braces := braces_fresh balanced (logged.region member)
  rw [logged.slot_eq (by omega) fun w hw => (logged.ends within hr hw).1,
    logged.slot_eq bounds.2 fun w hw => (logged.ends within hr hw).2]
  exact braces

end Arena

namespace Buffer

open Arena

/-- The buffers that come from one by questions for offsets, replaced regions and resolved blocks
in any order, each with the ranges of slots that were written. -/
inductive Rewritten (b₀ : Buffer) (blocks : List Block) : Buffer → List (Nat × Nat) → Prop where
  | start : Rewritten b₀ blocks b₀ []
  | asked {b : Buffer} {log : List (Nat × Nat)} : Rewritten b₀ blocks b log →
      Rewritten b₀ blocks b.offsets.2 log
  | replaced {b : Buffer} {log : List (Nat × Nat)} {r : Region} (new : Text) :
      Rewritten b₀ blocks b log → r ∈ b.arena.regions →
      Rewritten b₀ blocks (b.replace r new).2 (log ++ [(r.first, r.last)])
  | chosen {b : Buffer} {log : List (Nat × Nat)} {block : Block} (condition : Bool) :
      Rewritten b₀ blocks b log → block ∈ blocks →
      Rewritten b₀ blocks (b.choose block condition) (log ++ block.ranges condition)

/-- What holds of a buffer after the ranges of a log were written. -/
structure Kept (b : Buffer) (log : List (Nat × Nat)) : Prop where
  void : ∀ r ∈ b.arena.regions, r.void = true ↔ ∃ w ∈ log, Covers w r
  written : ∀ k s, b.arena.slots[k]? = some s → (s.written = true ↔ ∃ w ∈ log, Touches w k)
  ends : ∀ r ∈ b.arena.live, ∀ w ∈ log, ¬ Touches w r.first ∧ ¬ Touches w r.last
  braces : ∀ r ∈ b.arena.live, (b.arena.regionText r).head? = some '{' ∧
    (b.arena.regionText r).getLast? = some '}'
  bounds : ∀ r ∈ b.arena.live, (b.start r).1 < (b.stop r).1 ∧ (b.stop r).1 ≤ b.length.1
  apart : b.arena.live.Pairwise fun r q => (b.stop r).1 ≤ (b.start q).1 ∨
    (b.start r).1 < (b.start q).1 ∧ (b.stop q).1 < (b.stop r).1

section Fresh

variable {t : Text} (balanced : Balanced t)
include balanced

theorem Rewritten.logged {blocks : List Block} (paired : Block.matchAll (fresh t) = .ok blocks)
    {b : Buffer} {log : List (Nat × Nat)} (h : Rewritten (ofArena (fresh t)) blocks b log) :
    b.Fresh ∧ Logged (fresh t) b.arena log := by
  have within := within_fresh balanced
  have laminar := laminar_fresh balanced
  induction h with
  | start => exact ⟨fresh_ofArena _, .start (tidy_fresh balanced)⟩
  | asked _ ih =>
    obtain ⟨same, kept⟩ := ih.1.arena_offsets
    exact ⟨kept, same ▸ ih.2⟩
  | replaced new _ member ih =>
    have bounds := ih.2.within within _ member
    rw [ih.1.replace_eq bounds.1 bounds.2]
    exact ⟨fresh_ofArena _, ih.2.write (uncut_region within laminar (ih.2.region member)) new⟩
  | chosen condition _ member ih =>
    refine ⟨fresh_ofArena _, ?_⟩
    rw [choose, Block.choose_eq]
    exact ih.2.foldl (Block.uncut_ranges within laminar paired member condition)

theorem kept_of_logged {b : Buffer} {log : List (Nat × Nat)} (offsets : b.Fresh)
    (logged : Logged (fresh t) b.arena log) : Kept b log := by
  have within := within_fresh balanced
  have bounds {r : Region} (hr : r ∈ b.arena.live) :=
    logged.within within r (List.mem_of_mem_filter hr)
  have start_eq {r : Region} (hr : r ∈ b.arena.live) : (b.start r).1 = b.arena.start r :=
    offsets.start_eq (by have := bounds hr; omega)
  have stop_eq {r : Region} (hr : r ∈ b.arena.live) : (b.stop r).1 = b.arena.stop r :=
    offsets.stop_eq (bounds hr).2
  constructor
  · exact logged.void
  · intro k s slot
    rcases logged.slots k s slot with ⟨hit, written⟩ | ⟨missed, same⟩
    · exact iff_of_true written hit
    · refine iff_of_false ?_ fun ⟨w, hw, hit⟩ => missed w hw hit
      simp [unwritten_fresh same]
  · exact fun r hr w hw => logged.ends within hr hw
  · intro r hr
    obtain ⟨_, first, head⟩ := (logged.braces balanced hr).1
    obtain ⟨_, last, tail⟩ := (logged.braces balanced hr).2
    exact ⟨head?_regionText (bounds hr).1 first head, getLast?_regionText (bounds hr).1 last tail⟩
  · intro r hr
    obtain ⟨_, first, head⟩ := (logged.braces balanced hr).1
    have room := bounds hr
    rw [start_eq hr, stop_eq hr, offsets.length_eq]
    constructor
    · exact offset_lt_offset first (List.mem_of_head? head) (Nat.le_refl _) (by omega)
    · have whole : b.text.length = b.arena.offset b.arena.slots.length := by
        rw [offset_eq, List.take_length, text, Arena.text]
      rw [whole]
      exact b.arena.offset_le_offset (by omega)
  · have apart := (logged.apart (laminar_fresh balanced)).filter fun r => !r.void
    refine apart.imp_of_mem fun {r q} hr hq order => ?_
    rw [start_eq hr, stop_eq hr, start_eq hq, stop_eq hq]
    rcases order with before | around
    · exact .inl (b.arena.offset_le_offset before)
    · obtain ⟨_, first, head⟩ := (logged.braces balanced hr).1
      obtain ⟨_, last, tail⟩ := (logged.braces balanced hr).2
      refine .inr ⟨?_, ?_⟩
      · exact offset_lt_offset first (List.mem_of_head? head) (Nat.le_refl _) around.1
      · exact offset_lt_offset last (List.mem_of_getLast? tail) around.2 (Nat.lt_succ_self _)

end Fresh

/-- Whatever was replaced and resolved, the regions that no write covers keep their braces and
their nesting, and only they are live. -/
theorem rewritten_kept {t : Text} {b₀ b : Buffer} {blocks : List Block} {log : List (Nat × Nat)}
    (read : ofText t = .ok b₀) (paired : Block.matchAll b₀.arena = .ok blocks)
    (rewritten : Rewritten b₀ blocks b log) : Kept b log := by
  obtain ⟨balanced, rfl⟩ := ofText_eq_ok.mp read
  obtain ⟨offsets, logged⟩ := rewritten.logged balanced paired
  exact kept_of_logged balanced offsets logged

/-- A span in the first branch is replaced, then that branch is chosen. -/
theorem rewritten_kept_branch :
    let t := "\x7bif\x7d\x7bb\x7bc\x7d\x7d\x7belse\x7d\x7bfi\x7d".toList
    let b₀ := ofArena (fresh t)
    let inner : Region := ⟨2, 2, 2, some 1, 1, false⟩
    let block : Block :=
      ⟨⟨0, 0, 0, none, 0, false⟩, some ⟨3, 4, 4, none, 0, false⟩, ⟨4, 5, 5, none, 0, false⟩⟩
    let b := (b₀.replace inner "xyz!".toList).2.choose block true
    ofText t = .ok b₀ ∧ Block.matchAll b₀.arena = .ok [block] ∧
      Rewritten b₀ [block] b [(2, 2), (4, 5), (0, 0)] ∧ Kept b [(2, 2), (4, 5), (0, 0)] := by
  have paired : Block.matchAll
      (fresh "\x7bif\x7d\x7bb\x7bc\x7d\x7d\x7belse\x7d\x7bfi\x7d".toList) = .ok [⟨
        ⟨0, 0, 0, none, 0, false⟩, some ⟨3, 4, 4, none, 0, false⟩, ⟨4, 5, 5, none, 0, false⟩⟩] := by
    cbv
  intro t b₀ inner block b
  have read : ofText t = .ok b₀ := ofText_eq_ok.mpr ⟨(balanced_iff t).mpr rfl, rfl⟩
  have rewritten : Rewritten b₀ [block] b [(2, 2), (4, 5), (0, 0)] :=
    .chosen true (.replaced _ .start (by decide)) List.mem_cons_self
  exact ⟨read, paired, rewritten, rewritten_kept read paired rewritten⟩

end Buffer

end ChatCommands
