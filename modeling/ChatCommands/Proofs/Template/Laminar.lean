import Mathlib.Data.List.Pairwise
import ChatCommands.Proofs.Template.Layout
import ChatCommands.Proofs.Template.Nesting

/-!
How the regions of an arena lie in one another.

Slots are cut at every edge of a span, so the regions of a template are nested in its slots as its
spans are in its text.
-/

namespace ChatCommands

open Span

theorem related_of_pairwise {α : Type} {R : α → α → Prop} {xs : List α} (h : xs.Pairwise R)
    {x y : α} (hx : x ∈ xs) (hy : y ∈ xs) (other : x ≠ y) : R x y ∨ R y x := by
  have symm : Std.Symm fun x y => R x y ∨ R y x := ⟨fun _ _ => Or.symm⟩
  have either : xs.Pairwise fun x y => R x y ∨ R y x := h.imp .inl
  exact either.forall hx hy other

namespace Span

theorem Encloses.trans {a b c : Span} (h : a.Encloses b) (h' : b.Encloses c) : a.Encloses c :=
  ⟨Nat.lt_trans h.1 h'.1, Nat.lt_trans h'.2 h.2⟩

/-- What lies around a span lies around its siblings. -/
theorem Nested.siblings {found : List Span} (nested : Nested found) {a b c : Span}
    (ha : a ∈ found) (hb : b ∈ found) (hc : c ∈ found) (same : a.parent = b.parent)
    (around : c.Encloses a) : c.Encloses b := by
  have parent_a := nested.parent a ha
  have parent_b := nested.parent b hb
  unfold ParentIn at parent_a parent_b
  rw [← same] at parent_b
  cases parent : a.parent with
  | none =>
    rw [parent] at parent_a
    exact absurd around (parent_a c hc)
  | some p =>
    rw [parent] at parent_a parent_b
    obtain ⟨x, place, _, innermost⟩ := parent_a
    obtain ⟨y, place', above, _⟩ := parent_b
    obtain rfl : x = y := Option.some.inj (place.symm.trans place')
    rcases innermost c hc around with rfl | outer
    · exact above
    · exact outer.trans above

end Span

/-- Whether a region lies around another, with slots on both sides. -/
def Region.Encloses (r q : Region) : Prop :=
  r.first < q.first ∧ q.last < r.last

namespace Arena

/-- Whether regions share no slot or lie inside one another, and siblings have the same regions
around them. -/
structure Laminar (a : Arena) : Prop where
  apart : a.regions.Pairwise fun r q => r.last < q.first ∨ r.Encloses q
  siblings : ∀ r ∈ a.regions, ∀ q ∈ a.regions, ∀ x ∈ a.regions, r.parent = q.parent →
    x.Encloses r → x.Encloses q

/-- Siblings stand one behind the other. -/
theorem Laminar.siblings_apart {a : Arena} (laminar : a.Laminar) :
    a.regions.Pairwise fun r q => r.parent = q.parent → r.last < q.first := by
  refine laminar.apart.imp_of_mem fun {r q} hr hq order same => ?_
  rcases order with before | around
  · exact before
  · have self := laminar.siblings q hq r hr r hr same.symm around
    exact absurd self.1 (Nat.lt_irrefl _)

theorem idxOf_lt_idxOf_iff {edges : List Nat} (sorted : edges.Pairwise (· < ·)) {p q : Nat}
    (hp : p ∈ edges) (hq : q ∈ edges) : edges.idxOf p < edges.idxOf q ↔ p < q := by
  refine ⟨fun before => ?_, idxOf_lt_idxOf sorted hp hq⟩
  rcases Nat.lt_trichotomy p q with order | rfl | order
  · exact order
  · exact absurd before (Nat.lt_irrefl _)
  · exact absurd before (Nat.lt_asymm (idxOf_lt_idxOf sorted hq hp order))

section Fresh

variable {t : Text} (h : Balanced t)
include h

theorem regionOf_before {a b : Span} (ha : a ∈ spans t) (hb : b ∈ spans t)
    (before : a.stop ≤ b.start) (i j : Nat) :
    (regionOf (cuts t (spans t)) i a).last < (regionOf (cuts t (spans t)) j b).first := by
  have some := idxOf_lt_idxOf (cuts_sorted t) (start_mem_cuts h ha) (stop_mem_cuts h ha)
    (h.ordered.within a ha).1
  simp only [regionOf]
  rcases Nat.lt_or_eq_of_le before with gap | seam
  · have order := idxOf_lt_idxOf (cuts_sorted t) (stop_mem_cuts h ha) (start_mem_cuts h hb) gap
    omega
  · rw [← seam]
    omega

theorem regionOf_encloses {a b : Span} (ha : a ∈ spans t) (hb : b ∈ spans t) (i j : Nat) :
    (regionOf (cuts t (spans t)) i a).Encloses (regionOf (cuts t (spans t)) j b) ↔
      a.Encloses b := by
  have first := idxOf_lt_idxOf_iff (cuts_sorted t) (start_mem_cuts h ha) (start_mem_cuts h hb)
  have last := idxOf_lt_idxOf_iff (cuts_sorted t) (stop_mem_cuts h hb) (stop_mem_cuts h ha)
  have some := idxOf_lt_idxOf (cuts_sorted t) (start_mem_cuts h hb) (stop_mem_cuts h hb)
    (h.ordered.within b hb).1
  simp only [Region.Encloses, Span.Encloses, regionOf]
  omega

theorem laminar_fresh : (fresh t).Laminar := by
  constructor
  · rw [fresh_regions, List.pairwise_iff_getElem]
    intro i j hi hj order
    simp only [List.length_mapIdx] at hi hj
    have ha := List.getElem_mem hi
    have hb := List.getElem_mem hj
    simp only [List.getElem_mapIdx]
    rcases List.pairwise_iff_getElem.mp h.nested.apart i j hi hj order with before | around
    · exact .inl (regionOf_before h ha hb before i j)
    · exact .inr ((regionOf_encloses h ha hb i j).mpr around)
  · simp only [fresh_regions, List.mem_mapIdx]
    rintro _ ⟨i, hi, rfl⟩ _ ⟨j, hj, rfl⟩ _ ⟨k, hk, rfl⟩ same around
    have ha := List.getElem_mem hi
    have hb := List.getElem_mem hj
    have hc := List.getElem_mem hk
    rw [regionOf_encloses h hc ha] at around
    rw [regionOf_encloses h hc hb]
    exact h.nested.siblings ha hb hc same around

end Fresh

end Arena

end ChatCommands
