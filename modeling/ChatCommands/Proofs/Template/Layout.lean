import ChatCommands.Proofs.Template.Piece
import ChatCommands.Template.Arena

/-!
The arena of a text put together from closed parts.

Where the seam of two parts is an edge of some span, the arena of the whole is the arena of the
first part followed by that of the second, whose regions are numbered on.
-/

namespace ChatCommands

/-- The place of a region behind some slots and regions. -/
def Region.shift (slots regions : Nat) (r : Region) : Region :=
  { r with
    index := r.index + regions, first := r.first + slots, last := r.last + slots,
    parent := r.parent.map (· + regions) }

theorem Region.shift_shift (k l i j : Nat) (r : Region) :
    (r.shift l j).shift k i = r.shift (k + l) (i + j) := by
  cases hp : r.parent <;> simp [shift, hp, Nat.add_comm, Nat.add_left_comm]

theorem Region.shift_zero : Region.shift 0 0 = id := by
  funext r
  cases r with
  | mk index first last parent depth void => cases parent <;> simp [shift]

namespace Text

theorem slice_append_left {s : Text} {b : Nat} (inside : b ≤ s.length) (t : Text) (a : Nat) :
    slice (s ++ t) a b = slice s a b := by
  simp [slice, List.take_append_of_le_length inside]

theorem slice_append_right (s t : Text) (a b : Nat) :
    slice (s ++ t) (s.length + a) (s.length + b) = slice t a b := by
  rw [slice, slice, List.take_length_add_append, List.drop_length_add_append]

theorem slice_append_slice (t : Text) {a b c : Nat} (hab : a ≤ b) (hbc : b ≤ c) :
    slice t a b ++ slice t b c = slice t a c := by
  have first : slice t a b = (slice t a c).take (b - a) := by
    rw [slice, slice, List.take_drop, Nat.add_sub_cancel' hab, List.take_take, Nat.min_eq_left hbc]
  have second : slice t b c = (slice t a c).drop (b - a) := by
    rw [slice, slice, List.drop_drop, Nat.add_sub_cancel' hab]
  rw [first, second, List.take_append_drop]

end Text

namespace Span

theorem text_append_left {s : Text} {a : Span} (inside : a.stop ≤ s.length) (t : Text) :
    a.text (s ++ t) = a.text s :=
  Text.slice_append_left inside t _

theorem text_under (s t : Text) (around : List Nat) (index : Nat) (a : Span) :
    (a.under around index s.length).text (s ++ t) = a.text t := by
  rw [text, under, Nat.add_comm a.start, Nat.add_comm a.stop, Text.slice_append_right, text]

theorem text_whole (inner : Text) :
    (⟨0, inner.length + 2, none, 0⟩ : Span).text (Text.braced inner) = Text.braced inner := by
  rw [text, Text.slice, List.drop_zero, ← Text.length_braced inner, List.take_length]

theorem text_braced {inner : Text} {a : Span} (inside : a.stop ≤ inner.length)
    (around : List Nat) (index : Nat) :
    (a.under around index 1).text (Text.braced inner) = a.text inner := by
  have prefixed : Text.braced inner = ['{'] ++ (inner ++ ['}']) := rfl
  rw [prefixed, ← text_append_left inside ['}']]
  exact text_under ['{'] _ around index a

end Span

namespace Arena

open Span

/-- The arena of a template before anything is written. -/
def fresh (t : Text) : Arena :=
  ofSpans t (spans t)

instance : Append Arena where
  append a b :=
    ⟨a.slots ++ b.slots, a.regions ++ b.regions.map (Region.shift a.slots.length a.regions.length)⟩

@[simp] theorem slots_append (a b : Arena) : (a ++ b).slots = a.slots ++ b.slots := rfl

@[simp] theorem regions_append (a b : Arena) :
    (a ++ b).regions =
      a.regions ++ b.regions.map (Region.shift a.slots.length a.regions.length) :=
  rfl

/-- Whether a text is cut at a position. -/
def isCut (t : Text) (p : Nat) : Bool :=
  p == 0 || p == t.length || (spans t).any fun s => s.start == p || s.stop == p

/-- The cuts before the end of the text. -/
def innerCuts (t : Text) : List Nat :=
  (List.range t.length).filter (isCut t)

theorem cuts_eq (t : Text) : cuts t (spans t) = innerCuts t ++ [t.length] := by
  have last : isCut t t.length = true := by simp [isCut]
  change (List.range (t.length + 1)).filter (isCut t) = _
  rw [List.range_succ, List.filter_append, List.filter_cons_of_pos last]
  rfl

theorem isCut_append_left {s t : Text} (hs : Closed s) (ht : Balanced t) {p : Nat}
    (inside : p < s.length) : isCut (s ++ t) p = isCut s p := by
  have later : ((spans t).map (under [] (spans s).length s.length)).any
      (fun a => a.start == p || a.stop == p) = false := by
    simp only [List.any_map, List.any_eq_false, Function.comp_apply, under, Bool.or_eq_true,
      beq_iff_eq]
    intro a _
    omega
  have ends : (p == (s ++ t).length) = (p == s.length) := by
    rw [Bool.eq_iff_iff, beq_iff_eq, beq_iff_eq, List.length_append]
    omega
  simp only [isCut, spans_append hs ht, List.any_append, later, ends, Bool.or_false]

theorem isCut_append_right {s t : Text} (hs : Closed s) (ht : Balanced t)
    (seam : isCut (s ++ t) s.length = true) (q : Nat) :
    isCut (s ++ t) (s.length + q) = isCut t q := by
  by_cases first : q = 0
  · subst first
    rw [Nat.add_zero, seam]
    simp [isCut]
  · have earlier : (spans s).any
        (fun a => a.start == s.length + q || a.stop == s.length + q) = false := by
      simp only [List.any_eq_false, Bool.or_eq_true, beq_iff_eq]
      intro a ha
      have h := hs.ordered.within a ha
      omega
    have later : ((spans t).map (under [] (spans s).length s.length)).any
        (fun a => a.start == s.length + q || a.stop == s.length + q) =
          (spans t).any fun a => a.start == q || a.stop == q := by
      rw [List.any_map]
      congr 1
      funext a
      rw [Bool.eq_iff_iff]
      simp only [Function.comp_apply, under, Bool.or_eq_true, beq_iff_eq]
      omega
    have left : (s.length + q == 0) = (q == 0) := by
      rw [Bool.eq_iff_iff, beq_iff_eq, beq_iff_eq]
      omega
    have right : (s.length + q == (s ++ t).length) = (q == t.length) := by
      rw [Bool.eq_iff_iff, beq_iff_eq, beq_iff_eq, List.length_append]
      omega
    simp only [isCut, spans_append hs ht, List.any_append, earlier, later, left, right,
      Bool.false_or]

theorem cuts_append {s t : Text} (hs : Closed s) (ht : Balanced t)
    (seam : isCut (s ++ t) s.length = true) :
    cuts (s ++ t) (spans (s ++ t)) = innerCuts s ++ (cuts t (spans t)).map (s.length + ·) := by
  change (List.range ((s ++ t).length + 1)).filter (isCut (s ++ t)) = _
  rw [List.length_append, Nat.add_assoc, List.range_add, List.filter_append]
  congr 1
  · apply List.filter_congr
    intro p hp
    exact isCut_append_left hs ht (List.mem_range.mp hp)
  · rw [List.filter_map]
    congr 1
    apply List.filter_congr
    intro q _
    exact isCut_append_right hs ht seam q

/-- The text between each two neighbours of a list of positions. -/
def slotsBetween (t : Text) (edges : List Nat) : List Slot :=
  (edges.zip edges.tail).map fun (a, b) => ⟨t.slice a b, false⟩

/-- The region of a span that comes after `index` others. -/
def regionOf (edges : List Nat) (index : Nat) (s : Span) : Region :=
  ⟨index, edges.idxOf s.start, edges.idxOf s.stop - 1, s.parent, s.depth, false⟩

theorem fresh_slots (t : Text) : (fresh t).slots = slotsBetween t (cuts t (spans t)) := rfl

theorem fresh_regions (t : Text) :
    (fresh t).regions = (spans t).mapIdx (regionOf (cuts t (spans t))) := rfl

@[simp] theorem slotsBetween_length (t : Text) (edges : List Nat) :
    (slotsBetween t edges).length = edges.length - 1 := by
  simp [slotsBetween]

theorem slotsBetween_split (t : Text) (before after : List Nat) (m : Nat) :
    slotsBetween t (before ++ m :: after) =
      slotsBetween t (before ++ [m]) ++ slotsBetween t (m :: after) := by
  induction before with
  | nil => simp [slotsBetween]
  | cons x before ih =>
    cases before with
    | nil => simp [slotsBetween]
    | cons y before =>
      simp only [slotsBetween, List.cons_append, List.tail_cons, List.zip_cons_cons,
        List.map_cons] at ih ⊢
      rw [ih]

theorem slotsBetween_left {s : Text} {edges : List Nat} (inside : ∀ p ∈ edges, p ≤ s.length)
    (t : Text) : slotsBetween (s ++ t) edges = slotsBetween s edges := by
  apply List.map_congr_left
  rintro ⟨a, b⟩ hab
  have hb : b ∈ edges := List.mem_of_mem_tail (List.of_mem_zip hab).2
  simp only [Text.slice_append_left (inside b hb)]

theorem slotsBetween_right (s t : Text) (edges : List Nat) :
    slotsBetween (s ++ t) (edges.map (s.length + ·)) = slotsBetween t edges := by
  rw [slotsBetween, ← List.map_tail, List.zip_map, List.map_map]
  apply List.map_congr_left
  rintro ⟨a, b⟩ _
  simp only [Function.comp_apply, Prod.map_apply, Text.slice_append_right]

theorem innerCuts_lt {t : Text} {p : Nat} (h : p ∈ innerCuts t) : p < t.length :=
  List.mem_range.mp (List.mem_filter.mp h).1

theorem mem_cuts {t : Text} {p : Nat} (h : isCut t p = true) (inside : p ≤ t.length) :
    p ∈ cuts t (spans t) :=
  List.mem_filter.mpr ⟨List.mem_range.mpr (by omega), h⟩

theorem start_mem_cuts {t : Text} (h : Balanced t) {s : Span} (member : s ∈ spans t) :
    s.start ∈ cuts t (spans t) := by
  have within := h.ordered.within s member
  apply mem_cuts _ (by omega)
  have edge : (spans t).any (fun a => a.start == s.start || a.stop == s.start) = true :=
    List.any_eq_true.mpr ⟨s, member, by simp⟩
  simp [isCut, edge]

theorem stop_mem_cuts {t : Text} (h : Balanced t) {s : Span} (member : s ∈ spans t) :
    s.stop ∈ cuts t (spans t) := by
  have within := h.ordered.within s member
  apply mem_cuts _ within.2
  have edge : (spans t).any (fun a => a.start == s.stop || a.stop == s.stop) = true :=
    List.any_eq_true.mpr ⟨s, member, by simp⟩
  simp [isCut, edge]

theorem cuts_start (t : Text) : ∃ rest, cuts t (spans t) = 0 :: rest := by
  have first : isCut t 0 = true := by simp [isCut]
  change ∃ rest, (List.range (t.length + 1)).filter (isCut t) = 0 :: rest
  rw [List.range_succ_eq_map, List.filter_cons_of_pos first]
  exact ⟨_, rfl⟩

theorem idxOf_before {before after : List Nat} {m p : Nat} (h : p ∈ before ++ [m]) :
    (before ++ m :: after).idxOf p = (before ++ [m]).idxOf p := by
  by_cases early : p ∈ before
  · simp [List.idxOf_append, early]
  · have last : p = m := by simpa [early] using h
    subst last
    simp [List.idxOf_append]

theorem idxOf_shift (n p : Nat) (edges : List Nat) :
    (edges.map (n + ·)).idxOf (n + p) = edges.idxOf p := by
  induction edges with
  | nil => rfl
  | cons e edges ih => simp [List.idxOf_cons, ih, Bool.beq_eq_decide_eq]

theorem slots_length_fresh (t : Text) : (fresh t).slots.length = (innerCuts t).length := by
  rw [fresh_slots, slotsBetween_length, cuts_eq]
  simp

section Seam

variable {s t : Text} (hs : Closed s) (ht : Balanced t)
  (seam : isCut (s ++ t) s.length = true)
include hs ht seam

theorem cuts_seam : ∃ rest, cuts t (spans t) = 0 :: rest ∧
    cuts (s ++ t) (spans (s ++ t)) = innerCuts s ++ s.length :: rest.map (s.length + ·) := by
  obtain ⟨rest, start⟩ := cuts_start t
  refine ⟨rest, start, ?_⟩
  rw [cuts_append hs ht seam, start]
  rfl

theorem slots_seam : (fresh (s ++ t)).slots = (fresh s).slots ++ (fresh t).slots := by
  obtain ⟨rest, start, whole⟩ := cuts_seam hs ht seam
  have right : s.length :: rest.map (s.length + ·) = (0 :: rest).map (s.length + ·) := rfl
  have inside : ∀ p ∈ innerCuts s ++ [s.length], p ≤ s.length := by
    intro p hp
    rcases List.mem_append.mp hp with hp | hp
    · exact Nat.le_of_lt (innerCuts_lt hp)
    · exact Nat.le_of_eq (List.mem_singleton.mp hp)
  rw [fresh_slots, fresh_slots, fresh_slots, whole, slotsBetween_split, cuts_eq s, start, right,
    slotsBetween_right, slotsBetween_left inside]

theorem region_seam_left {a : Span} (member : a ∈ spans s) (i : Nat) :
    regionOf (cuts (s ++ t) (spans (s ++ t))) i a = regionOf (cuts s (spans s)) i a := by
  obtain ⟨rest, _, whole⟩ := cuts_seam hs ht seam
  have first := start_mem_cuts hs.balanced member
  have last := stop_mem_cuts hs.balanced member
  rw [cuts_eq] at first last
  simp only [regionOf, whole, cuts_eq s, idxOf_before first, idxOf_before last]

theorem region_seam_right {a : Span} (member : a ∈ spans t) (i : Nat) :
    regionOf (cuts (s ++ t) (spans (s ++ t))) (i + (spans s).length)
        (under [] (spans s).length s.length a) =
      (regionOf (cuts t (spans t)) i a).shift (fresh s).slots.length (spans s).length := by
  obtain ⟨rest, start, _⟩ := cuts_seam hs ht seam
  have later (p : Nat) : (cuts (s ++ t) (spans (s ++ t))).idxOf (p + s.length) =
      (cuts t (spans t)).idxOf p + (innerCuts s).length := by
    have outside : p + s.length ∉ innerCuts s := fun h => by
      have := innerCuts_lt h
      omega
    rw [cuts_append hs ht seam, List.idxOf_append, if_neg outside, Nat.add_comm p, idxOf_shift]
  -- The number of the last slot is one less than that of the edge after it, which is not the first.
  have positive : 1 ≤ (cuts t (spans t)).idxOf a.stop := by
    have within := ht.ordered.within a member
    have first : (0 == a.stop) = false := beq_false_of_ne (by omega)
    simp [start, List.idxOf_cons, first]
  have last : (cuts t (spans t)).idxOf a.stop + (innerCuts s).length - 1 =
      (cuts t (spans t)).idxOf a.stop - 1 + (innerCuts s).length := by omega
  simp only [regionOf, under, Region.shift, later, last, slots_length_fresh, List.head?_nil,
    Option.or_none, List.length_nil, Nat.add_zero]

/-- The arena of a text whose seam is an edge. -/
theorem fresh_append : fresh (s ++ t) = fresh s ++ fresh t := by
  have regions : (fresh (s ++ t)).regions = (fresh s ++ fresh t).regions := by
    have parts : (fresh (s ++ t)).regions =
        (spans s ++ (spans t).map (under [] (spans s).length s.length)).mapIdx
          (regionOf (cuts (s ++ t) (spans (s ++ t)))) := by
      rw [← spans_append hs ht]
      rfl
    rw [parts, regions_append, fresh_regions s, fresh_regions t, List.mapIdx_append]
    congr 1
    · apply List.mapIdx_eq_mapIdx_iff.mpr
      intro i hi
      exact region_seam_left hs ht seam (List.getElem_mem hi) i
    · apply List.ext_getElem
      · simp
      · intro i hi _
        have hi : i < (spans t).length := by simpa using hi
        simpa using region_seam_right hs ht seam (List.getElem_mem hi) i
  have eq := slots_seam hs ht seam
  calc fresh (s ++ t) = ⟨(fresh (s ++ t)).slots, (fresh (s ++ t)).regions⟩ := rfl
    _ = ⟨(fresh s ++ fresh t).slots, (fresh s ++ fresh t).regions⟩ := by rw [eq, regions]; rfl

end Seam

theorem cuts_sorted (t : Text) : (cuts t (spans t)).Pairwise (· < ·) :=
  List.Pairwise.filter _ List.pairwise_lt_range

theorem idxOf_lt_idxOf {edges : List Nat} (sorted : edges.Pairwise (· < ·)) {p q : Nat}
    (hp : p ∈ edges) (hq : q ∈ edges) (before : p < q) : edges.idxOf p < edges.idxOf q := by
  have lp := List.idxOf_lt_length_of_mem hp
  have lq := List.idxOf_lt_length_of_mem hq
  rcases Nat.lt_trichotomy (edges.idxOf p) (edges.idxOf q) with h | h | h
  · exact h
  · have eq : edges[edges.idxOf p] = edges[edges.idxOf q] := by simp only [h]
    rw [List.getElem_idxOf lp, List.getElem_idxOf lq] at eq
    omega
  · have lt := List.pairwise_iff_getElem.mp sorted _ _ lq lp h
    rw [List.getElem_idxOf lp, List.getElem_idxOf lq] at lt
    omega

theorem slotsBetween_text {t : Text} {edges : List Nat} (sorted : edges.Pairwise (· < ·))
    {i j : Nat} (hij : i ≤ j) (hj : j < edges.length) :
    (((slotsBetween t edges).take j).drop i).flatMap Slot.text = t.slice edges[i] edges[j] := by
  induction j with
  | zero =>
    obtain rfl : i = 0 := by omega
    simp [Text.slice]
  | succ j ih =>
    rcases Nat.lt_or_eq_of_le hij with hlt | rfl
    · have hij : i ≤ j := by omega
      have hlen : j < (slotsBetween t edges).length := by
        rw [slotsBetween_length]
        omega
      have slot : (slotsBetween t edges)[j] = ⟨t.slice edges[j] edges[j + 1], false⟩ := by
        simp [slotsBetween]
      have low : edges[i] ≤ edges[j] := by
        rcases Nat.lt_or_eq_of_le hij with h | h
        · exact Nat.le_of_lt (List.pairwise_iff_getElem.mp sorted i j _ _ h)
        · simp only [h, Nat.le_refl]
      have high : edges[j] ≤ edges[j + 1] :=
        Nat.le_of_lt (List.pairwise_iff_getElem.mp sorted j (j + 1) _ _ (Nat.lt_succ_self j))
      rw [List.take_add_one, List.getElem?_eq_getElem hlen, slot, Option.toList_some,
        List.drop_append_of_le_length (by rw [List.length_take]; omega), List.flatMap_append,
        ih hij (by omega)]
      simpa using Text.slice_append_slice t low high
    · simp [Text.slice]

theorem regionText_regionOf {t : Text} (h : Balanced t) {s : Span} (member : s ∈ spans t)
    (i : Nat) : (fresh t).regionText (regionOf (cuts t (spans t)) i s) = s.text t := by
  have within := h.ordered.within s member
  have hs := start_mem_cuts h member
  have he := stop_mem_cuts h member
  have before := idxOf_lt_idxOf (cuts_sorted t) hs he within.1
  have next : (cuts t (spans t)).idxOf s.stop - 1 + 1 = (cuts t (spans t)).idxOf s.stop := by omega
  rw [regionText, regionOf, fresh_slots]
  simp only [next]
  rw [slotsBetween_text (cuts_sorted t) (Nat.le_of_lt before) (List.idxOf_lt_length_of_mem he),
    List.getElem_idxOf, List.getElem_idxOf, Span.text]

theorem regionOf_bounds {t : Text} (h : Balanced t) {s : Span} (member : s ∈ spans t) (i : Nat) :
    (regionOf (cuts t (spans t)) i s).first ≤ (regionOf (cuts t (spans t)) i s).last ∧
      (regionOf (cuts t (spans t)) i s).last < (fresh t).slots.length := by
  have within := h.ordered.within s member
  have he := stop_mem_cuts h member
  have before := idxOf_lt_idxOf (cuts_sorted t) (start_mem_cuts h member) he within.1
  have last := List.idxOf_lt_length_of_mem he
  simp only [regionOf, fresh_slots, slotsBetween_length]
  omega

theorem text_fresh (t : Text) : (fresh t).text = t := by
  obtain ⟨rest, start⟩ := cuts_start t
  have first : 0 < (cuts t (spans t)).length := by rw [cuts_eq]; simp
  have whole := slotsBetween_text (t := t) (cuts_sorted t) (Nat.zero_le _)
    (Nat.sub_lt first Nat.one_pos)
  have all : (slotsBetween t (cuts t (spans t))).take ((cuts t (spans t)).length - 1) =
      slotsBetween t (cuts t (spans t)) :=
    List.take_of_length_le (Nat.le_of_eq (slotsBetween_length _ _))
  rw [List.drop_zero, all] at whole
  have head : (cuts t (spans t))[0] = 0 := by simp only [start, List.getElem_cons_zero]
  have last : (cuts t (spans t))[(cuts t (spans t)).length - 1] = t.length := by
    simp [cuts_eq]
  rw [text, fresh_slots, whole, head]
  simp [last, Text.slice]

end Arena

end ChatCommands
