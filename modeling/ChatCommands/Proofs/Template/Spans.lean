import ChatCommands.Proofs.Template.Closed

/-!
The spans of a text put together from closed parts.

A part keeps its spans. Only their place in the whole changes: the offset, the number of the
first span, and the spans around the part.
-/

namespace ChatCommands

namespace Span

/-- The place of a span in a text that has the span's own text from `offset` on, where `index`
spans come before and `around` are open. -/
def under (around : List Nat) (index offset : Nat) (s : Span) : Span :=
  ⟨s.start + offset, s.stop + offset, (s.parent.map (· + index)).or around.head?,
    s.depth + around.length⟩

/-- The spans of a text whose braces are balanced. -/
def spans (t : Text) : List Span :=
  ofBraces [] 0 (Brace.ofText t)

theorem under_under (around inner : List Nat) (i j k l : Nat) (s : Span) :
    under around i k (under inner j l s) =
      under (inner.map (· + i) ++ around) (j + i) (l + k) s := by
  cases hp : s.parent with
  | none => cases inner <;> simp [under, hp, Nat.add_assoc, Nat.add_comm around.length]
  | some p => simp [under, hp, Nat.add_assoc]

theorem under_nil (s : Span) : under [] 0 0 s = s := by
  cases s with
  | mk start stop parent depth => cases parent <;> simp [under]

theorem ofBraces_pair (around : List Nat) (index k stop : Nat) (inner rest : List Brace)
    (closes : Brace.closing 0 (inner ++ ⟨stop, false⟩ :: rest) = some (stop + 1)) :
    ofBraces around index (⟨k, true⟩ :: (inner ++ ⟨stop, false⟩ :: rest)) =
      ⟨k, stop + 1, around.head?, around.length⟩ ::
        ofBraces (index :: around) (index + 1) (inner ++ ⟨stop, false⟩ :: rest) := by
  simp [ofBraces, closes]

end Span

open Span

theorem Closed.ofBraces_append {s : Text} (h : Closed s) (around : List Nat) (index k : Nat)
    (rest : List Brace) :
    ofBraces around index (Brace.ofTextAt k s ++ rest) =
      (spans s).map (under around index k) ++
        ofBraces around (index + (spans s).length) rest := by
  induction h generalizing around index k rest with
  | nil => simp [spans, Brace.ofText, ofBraces]
  | @plain c t hc ho hx _ ih =>
    have self : spans (c :: t) = (spans t).map (under [] 0 1) := by
      have h := ih [] 0 1 []
      simpa [spans, Brace.ofText, Brace.ofTextAt_plain _ hc ho hx, ofBraces] using h
    rw [Brace.ofTextAt_plain _ hc ho hx, ih, self]
    simp [List.map_map, Function.comp_def, under_under, Nat.add_comm]
  | @escaped d t _ ih =>
    have self : spans ('\\' :: d :: t) = (spans t).map (under [] 0 2) := by
      have h := ih [] 0 2 []
      simpa [spans, Brace.ofText, ofBraces] using h
    rw [Brace.ofTextAt_escaped, ih, self]
    simp [List.map_map, Function.comp_def, under_under, Nat.add_comm]
  | @braced inner t hi _ ih_inner ih =>
    have apart (around : List Nat) (index k : Nat) (rest : List Brace) :
        ofBraces around index (Brace.ofTextAt k ('{' :: (inner ++ '}' :: t)) ++ rest) =
          ⟨k, k + 1 + inner.length + 1, around.head?, around.length⟩ ::
            ((spans inner).map (under (index :: around) (index + 1) (k + 1)) ++
              ((spans t).map
                (under around (index + 1 + (spans inner).length) (k + 1 + inner.length + 1)) ++
                ofBraces around (index + 1 + (spans inner).length + (spans t).length) rest)) := by
      have closes (rest : List Brace) : Brace.closing 0
          (Brace.ofTextAt (k + 1) inner ++ ⟨k + 1 + inner.length, false⟩ :: rest) =
            some (k + 1 + inner.length + 1) := by
        rw [hi.closing_append]
        rfl
      rw [Brace.ofTextAt_open, Brace.ofTextAt_append _ hi.whole, Brace.ofTextAt_close]
      simp only [List.cons_append, List.append_assoc]
      rw [ofBraces_pair _ _ _ _ _ _ (closes _), ih_inner, ofBraces, List.tail_cons, ih]
    have self : spans ('{' :: (inner ++ '}' :: t)) =
        ⟨0, inner.length + 2, none, 0⟩ :: ((spans inner).map (under [0] 1 1) ++
          (spans t).map (under [] (1 + (spans inner).length) (inner.length + 2))) := by
      have h := apart [] 0 0 []
      simpa [spans, Brace.ofText, ofBraces, Nat.add_comm, Nat.add_left_comm] using h
    have head : under around index k ⟨0, inner.length + 2, none, 0⟩ =
        ⟨k, k + 1 + inner.length + 1, around.head?, around.length⟩ := by
      simp only [under, Option.map_none, Option.none_or, Nat.zero_add, Span.mk.injEq, true_and,
        and_true]
      omega
    rw [apart, self, List.map_cons, head]
    simp [List.map_map, Function.comp_def, under_under, Nat.add_comm, Nat.add_assoc,
      Nat.add_left_comm]

namespace Span

theorem spans_append {s t : Text} (hs : Closed s) (ht : Balanced t) :
    spans (s ++ t) = spans s ++ (spans t).map (under [] (spans s).length s.length) := by
  have place : ofBraces [] (spans s).length (Brace.ofTextAt s.length t) =
      (spans t).map (under [] (spans s).length s.length) := by
    obtain ⟨u, hu, rfl | rfl⟩ := ht
    · simpa [ofBraces] using hu.ofBraces_append [] (spans s).length s.length []
    · have lone : spans (u ++ ['\\']) = spans u := by
        simp [spans, Brace.ofText, Brace.ofTextAt_append _ hu.whole]
      rw [Brace.ofTextAt_append _ hu.whole, lone]
      simpa [ofBraces] using hu.ofBraces_append [] (spans s).length s.length []
  have head := hs.ofBraces_append [] 0 0 (Brace.ofTextAt s.length t)
  rw [spans, Brace.ofText, Brace.ofTextAt_append _ hs.whole, Nat.zero_add, head, Nat.zero_add,
    place, List.map_congr_left (fun s _ => under_nil s), List.map_id']

theorem spans_span {inner : Text} (h : Closed inner) :
    spans (Text.braced inner) =
      ⟨0, inner.length + 2, none, 0⟩ :: (spans inner).map (under [0] 1 1) := by
  have closes : Brace.closing 0 (Brace.ofTextAt 1 inner ++ [⟨1 + inner.length, false⟩]) =
      some (1 + inner.length + 1) := by
    rw [h.closing_append]
    rfl
  rw [spans, Brace.ofText, Text.braced, Brace.ofTextAt_open, Brace.ofTextAt_append _ h.whole,
    Brace.ofTextAt_close, Brace.ofTextAt_nil, Nat.zero_add,
    ofBraces_pair _ _ _ _ _ _ closes, h.ofBraces_append, ofBraces, ofBraces]
  simp
  omega

theorem spans_flat {t : Text} (flat : Brace.ofText t = []) : spans t = [] := by
  rw [spans, flat, ofBraces]

/-- Spans are not empty, lie in the text, stand in the order of their starts, and refer to spans
of the same text. -/
structure Ordered (t : Text) : Prop where
  within : ∀ s ∈ spans t, s.start < s.stop ∧ s.stop ≤ t.length
  sorted : (spans t).Pairwise fun a b => a.start < b.start
  parents : ∀ s ∈ spans t, ∀ p, s.parent = some p → p < (spans t).length

theorem Ordered.append {s t : Text} (hs : Closed s) (ht : Balanced t) (first : Ordered s)
    (second : Ordered t) : Ordered (s ++ t) := by
  have eq := spans_append hs ht
  constructor
  · intro a ha
    rw [eq, List.mem_append, List.mem_map] at ha
    rcases ha with ha | ⟨b, hb, rfl⟩
    · have h := first.within a ha
      simp only [List.length_append]
      omega
    · have h := second.within b hb
      simp only [under, List.length_append]
      omega
  · rw [eq, List.pairwise_append, List.pairwise_map]
    refine ⟨first.sorted, second.sorted.imp fun h => ?_, ?_⟩
    · simp only [under]
      omega
    · intro a ha b hb
      obtain ⟨c, _, rfl⟩ := List.mem_map.mp hb
      have h := first.within a ha
      simp only [under]
      omega
  · intro a ha p hp
    rw [eq, List.mem_append, List.mem_map] at ha
    rw [eq, List.length_append, List.length_map]
    rcases ha with ha | ⟨b, hb, rfl⟩
    · exact Nat.lt_add_right _ (first.parents a ha p hp)
    · simp only [under, List.head?_nil, Option.or_none, Option.map_eq_some_iff] at hp
      obtain ⟨q, hq, rfl⟩ := hp
      have h := second.parents b hb q hq
      omega

theorem Ordered.flat {t : Text} (flat : Brace.ofText t = []) : Ordered t := by
  have none := spans_flat flat
  constructor <;> simp [none]

theorem Ordered.span {inner : Text} (h : Closed inner) (inside : Ordered inner) :
    Ordered (Text.braced inner) := by
  have eq := spans_span h
  constructor
  · intro a ha
    rw [eq, List.mem_cons, List.mem_map] at ha
    rcases ha with rfl | ⟨b, hb, rfl⟩
    · simp
    · have h := inside.within b hb
      simp only [under, Text.length_braced]
      omega
  · rw [eq, List.pairwise_cons, List.pairwise_map]
    refine ⟨?_, inside.sorted.imp fun h => ?_⟩
    · intro a ha
      obtain ⟨b, _, rfl⟩ := List.mem_map.mp ha
      simp [under]
    · simp only [under]
      omega
  · intro a ha p hp
    rw [eq, List.mem_cons, List.mem_map] at ha
    rw [eq, List.length_cons, List.length_map]
    rcases ha with rfl | ⟨b, hb, rfl⟩
    · simp at hp
    · cases hq : b.parent with
      | none =>
        simp [under, hq] at hp
        omega
      | some q =>
        simp [under, hq] at hp
        have h := inside.parents b hb q hq
        omega

end Span

/-- Induction by the parts of a closed text: texts without braces, and spans. -/
@[elab_as_elim]
theorem Closed.part_induction {motive : ∀ t, Closed t → Prop} (nil : motive [] .nil)
    (flat : ∀ u t (hu : Closed u) (ht : Closed t), Brace.ofText u = [] → motive t ht →
      motive (u ++ t) (hu.append ht))
    (span : ∀ inner t (hi : Closed inner) (ht : Closed t), motive inner hi → motive t ht →
      motive (Text.braced inner ++ t) (hi.span.append ht)) {t : Text} (h : Closed t) :
    motive t h := by
  induction h with
  | nil => exact nil
  | @plain c t hc ho hx ht ih =>
    have single : Brace.ofText [c] = [] := by
      rw [Brace.ofText, Brace.ofTextAt_plain _ hc ho hx, Brace.ofTextAt_nil]
    exact flat [c] t (.plain hc ho hx .nil) ht single ih
  | @escaped d t ht ih =>
    exact flat ['\\', d] t (.escaped .nil) ht (by simp [Brace.ofText]) ih
  | @braced inner t hi ht ih_inner ih => simpa [Text.braced] using span inner t hi ht ih_inner ih

theorem Closed.ordered {t : Text} (h : Closed t) : Ordered t := by
  induction h using Closed.part_induction with
  | nil => exact .flat rfl
  | flat u t hu ht flat ih => exact .append hu ht.balanced (.flat flat) ih
  | span inner t hi ht ih_inner ih => exact .append hi.span ht.balanced (.span hi ih_inner) ih

theorem Balanced.ordered {t : Text} (h : Balanced t) : Ordered t := by
  obtain ⟨s, hs, rfl | rfl⟩ := h
  · exact hs.ordered
  · have lone : Balanced ['\\'] := ⟨[], .nil, .inr rfl⟩
    exact .append hs lone hs.ordered (.flat rfl)

theorem scan_eq_ok {t : Text} {found : List Span} :
    Span.scan t = .ok found ↔ Balanced t ∧ found = spans t := by
  rw [balanced_iff, Span.scan]
  cases imbalance [] (Brace.ofText t) with
  | none => simp [spans, eq_comm]
  | some fault => simp

theorem Balanced.scan_eq {t : Text} (h : Balanced t) : Span.scan t = .ok (spans t) :=
  scan_eq_ok.mpr ⟨h, rfl⟩

end ChatCommands
