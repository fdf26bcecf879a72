import ChatCommands.Proofs.Template.Blocks

/-!
Which slots are written when a region is replaced or a branch of a block is chosen.

A range that runs from a region to one of its siblings cuts no region in two. The ranges that a
block has erased are of this kind, because its markers are siblings.
-/

namespace ChatCommands

namespace Arena

/-- Whether a range of slots, both ends included, holds a region. -/
def Covers (w : Nat × Nat) (r : Region) : Prop :=
  w.1 ≤ r.first ∧ r.last ≤ w.2

def Touches (w : Nat × Nat) (k : Nat) : Prop :=
  w.1 ≤ k ∧ k ≤ w.2

/-- Whether a range holds each region, leaves it alone, or lies strictly inside. -/
structure Uncut (a : Arena) (w : Nat × Nat) : Prop where
  order : w.1 ≤ w.2
  spares : ∀ r ∈ a.regions, Covers w r ∨ w.2 < r.first ∨ r.last < w.1 ∨
    r.first < w.1 ∧ w.2 < r.last

section Laminar

variable {a : Arena} (within : a.Within) (laminar : a.Laminar)
include laminar

theorem Laminar.compare {r q : Region} (hr : r ∈ a.regions) (hq : q ∈ a.regions) :
    r = q ∨ r.last < q.first ∨ q.last < r.first ∨ r.Encloses q ∨ q.Encloses r := by
  by_cases same : r = q
  · exact .inl same
  rcases related_of_pairwise laminar.apart hr hq same with (before | around) | behind | inside
  · exact .inr (.inl before)
  · exact .inr (.inr (.inr (.inl around)))
  · exact .inr (.inr (.inl behind))
  · exact .inr (.inr (.inr (.inr inside)))

include within

theorem uncut_region {r : Region} (hr : r ∈ a.regions) : a.Uncut (r.first, r.last) := by
  have bounds := within r hr
  refine ⟨bounds.1, fun x hx => ?_⟩
  rcases laminar.compare hx hr with rfl | before | behind | around | inside
  · exact .inl ⟨Nat.le_refl _, Nat.le_refl _⟩
  · exact .inr (.inr (.inl before))
  · exact .inr (.inl behind)
  · exact .inr (.inr (.inr around))
  · exact .inl ⟨Nat.le_of_lt inside.1, Nat.le_of_lt inside.2⟩

theorem uncut_siblings {r q : Region} (hr : r ∈ a.regions) (hq : q ∈ a.regions)
    (same : r.parent = q.parent) (before : r.last < q.first) : a.Uncut (r.first, q.last) := by
  have bounds_r := within r hr
  have bounds_q := within q hq
  refine ⟨by omega, fun x hx => ?_⟩
  -- What lies around one of the two siblings lies around the other.
  rcases (uncut_region within laminar hr).spares x hx with inside | ahead | below | around
  · exact .inl ⟨inside.1, Nat.le_trans inside.2 (by omega)⟩
  · rcases (uncut_region within laminar hq).spares x hx with inside | behind | below | around
    · exact .inl ⟨by omega, inside.2⟩
    · exact .inr (.inl behind)
    · exact .inl ⟨by omega, by omega⟩
    · have outer : x.Encloses r := laminar.siblings q hq r hr x hx same.symm around
      exact absurd outer.1 (by omega)
  · exact .inr (.inr (.inl below))
  · exact .inr (.inr (.inr ⟨around.1, (laminar.siblings r hr q hq x hx same around).2⟩))

/-- A range from one region to another holds the two and what stands between them. -/
theorem covers_pair {m n r : Region} (hm : m ∈ a.regions) (hn : n ∈ a.regions)
    (hr : r ∈ a.regions) (order : m.last < n.first) :
    Covers (m.first, n.last) r ↔ Covers (m.first, m.last) r ∨ Covers (n.first, n.last) r ∨
      m.last < r.first ∧ r.last < n.first := by
  have bounds := within r hr
  have bounds_m := within m hm
  have bounds_n := within n hn
  have side_m := (uncut_region within laminar hm).spares r hr
  have side_n := (uncut_region within laminar hn).spares r hr
  simp only [Covers] at side_m side_n ⊢
  omega

end Laminar

end Arena

namespace Block

open Arena

/-- The ranges of slots that are erased when a branch of a block is chosen. -/
def ranges (b : Block) (condition : Bool) : List (Nat × Nat) :=
  match condition, b.divider with
  | true, some divider => [(divider.first, b.closer.last), (b.opener.first, b.opener.last)]
  | true, none => [(b.closer.first, b.closer.last), (b.opener.first, b.opener.last)]
  | false, some divider => [(b.closer.first, b.closer.last), (b.opener.first, divider.last)]
  | false, none => [(b.opener.first, b.closer.last)]

theorem choose_eq (b : Block) (condition : Bool) (a : Arena) :
    b.choose condition a = (b.ranges condition).foldl (fun a w => a.write w.1 w.2 []) a := by
  obtain ⟨opener, divider, closer⟩ := b
  cases condition <;> cases divider <;> rfl

/-- The branch that a condition chooses, by the markers in front of it and behind it. -/
def branch? (b : Block) (condition : Bool) : Option (Region × Region) :=
  match condition, b.divider with
  | true, divider => some (b.opener, divider.getD b.closer)
  | false, some divider => some (divider, b.closer)
  | false, none => none

/-- Apart from the branch that is chosen, everything between the two ends of a block is erased. -/
theorem ranges_eq (b : Block) (condition : Bool) :
    b.ranges condition =
      match b.branch? condition with
      | none => [(b.opener.first, b.closer.last)]
      | some x => [(x.2.first, b.closer.last), (b.opener.first, x.1.last)] := by
  obtain ⟨opener, divider, closer⟩ := b
  cases condition <;> cases divider <;> rfl

/-- Whether the markers of a block are siblings that stand in the arena in their order. -/
structure Placed (a : Arena) (b : Block) : Prop where
  regions : ∀ m ∈ b.members, m.1 ∈ a.regions
  siblings : ∀ m ∈ b.members, ∀ n ∈ b.members, m.1.parent = n.1.parent
  order : b.members.Pairwise fun m n => m.1.last < n.1.first

theorem placed_of_matchAll {a : Arena} (laminar : a.Laminar) {blocks : List Block}
    (paired : matchAll a = .ok blocks) {b : Block} (hb : b ∈ blocks) : Placed a b := by
  have sublist := members_siblings paired hb
  have region {m : Region × Marker} (hm : m ∈ b.members) :
      m.1 ∈ a.regions ∧ m.1.parent = b.opener.parent :=
    mem_siblings (List.mem_map_of_mem (sublist.subset hm))
  have order := ((markers_pairwise laminar.siblings_apart).filter _).sublist sublist
  constructor
  · exact fun m hm => (region hm).1
  · exact fun m hm n hn => (region hm).2.trans (region hn).2.symm
  · exact order.imp_of_mem fun hm hn before => before ((region hm).2.trans (region hn).2.symm)

theorem mem_branches {b : Block} {condition : Bool} {x : Region × Region}
    (hx : x ∈ b.branch? condition) : x ∈ b.branches := by
  obtain ⟨opener, divider, closer⟩ := b
  cases condition <;> cases divider <;> simp_all [branch?, branches]

theorem opener_mem {b : Block} : (b.opener, Marker.opens) ∈ b.members :=
  List.mem_cons_self

theorem closer_mem {b : Block} : (b.closer, Marker.closes) ∈ b.members :=
  List.mem_cons_of_mem _ (List.mem_append_right _ (List.mem_singleton_self _))

/-- Each range that is erased runs from one marker to the same or to a later one. -/
theorem forall_ranges {b : Block} {P : Nat × Nat → Prop}
    (single : ∀ m ∈ b.members, P (m.1.first, m.1.last))
    (pair : b.members.Pairwise fun m n => P (m.1.first, n.1.last)) (condition : Bool) :
    ∀ w ∈ b.ranges condition, P w := by
  obtain ⟨opener, divider, closer⟩ := b
  have first : P (opener.first, opener.last) := single _ opener_mem
  have last : P (closer.first, closer.last) := single _ closer_mem
  cases divider with
  | none =>
    have whole : P (opener.first, closer.last) :=
      List.rel_of_pairwise_cons pair (List.mem_singleton_self _)
    cases condition with
    | false => simpa [ranges] using whole
    | true => simpa [ranges] using ⟨last, first⟩
  | some divider =>
    have front : P (opener.first, divider.last) :=
      List.rel_of_pairwise_cons pair List.mem_cons_self
    have back : P (divider.first, closer.last) :=
      List.rel_of_pairwise_cons pair.of_cons (List.mem_singleton_self _)
    cases condition with
    | false => simpa [ranges] using ⟨last, front⟩
    | true => simpa [ranges] using ⟨back, first⟩

section Placed

variable {a : Arena} {b : Block} (within : a.Within) (placed : Placed a b)

/-- The markers on both sides of a branch. -/
theorem ends_of_branch {x : Region × Region} (hx : x ∈ b.branches) :
    (∃ kind, (x.1, kind) ∈ b.members) ∧ ∃ kind, (x.2, kind) ∈ b.members := by
  obtain ⟨opener, divider, closer⟩ := b
  cases divider with
  | none =>
    obtain rfl := List.mem_singleton.mp hx
    exact ⟨⟨.opens, by simp [members]⟩, ⟨.closes, by simp [members]⟩⟩
  | some divider =>
    rcases List.mem_pair.mp hx with rfl | rfl
    · exact ⟨⟨.opens, by simp [members]⟩, ⟨.divides, by simp [members]⟩⟩
    · exact ⟨⟨.divides, by simp [members]⟩, ⟨.closes, by simp [members]⟩⟩

include placed

theorem Placed.opener : b.opener ∈ a.regions :=
  placed.regions _ opener_mem

theorem Placed.closer : b.closer ∈ a.regions :=
  placed.regions _ closer_mem

theorem Placed.opener_before_closer : b.opener.last < b.closer.first :=
  (List.pairwise_cons.mp placed.order).1 _ (List.mem_append_right _ (List.mem_singleton_self _))

include within

theorem Placed.inside (condition : Bool) : ∀ w ∈ b.ranges condition, w.2 < a.slots.length :=
  forall_ranges (fun m hm => (within _ (placed.regions m hm)).2)
    (placed.order.imp_of_mem fun _ hn _ => (within _ (placed.regions _ hn)).2) condition

theorem Placed.uncut (laminar : a.Laminar) (condition : Bool) :
    ∀ w ∈ b.ranges condition, a.Uncut w := by
  refine forall_ranges (fun m hm => uncut_region within laminar (placed.regions m hm)) ?_ condition
  exact placed.order.imp_of_mem fun hm hn before =>
    uncut_siblings within laminar (placed.regions _ hm) (placed.regions _ hn)
      (placed.siblings _ hm _ hn) before

/-- The slots of a branch lie behind one marker and in front of another. -/
theorem Placed.branch {x : Region × Region} (hx : x ∈ b.branches) :
    b.opener.first ≤ x.1.last ∧ x.1.last < x.2.first ∧ x.2.first ≤ b.closer.last := by
  have opens := within _ placed.opener
  have closes := within _ placed.closer
  obtain ⟨opener, divider, closer⟩ := b
  cases divider with
  | none =>
    obtain rfl := List.mem_singleton.mp hx
    exact ⟨opens.1, placed.opener_before_closer, closes.1⟩
  | some divider =>
    have front : opener.last < divider.first :=
      List.rel_of_pairwise_cons placed.order List.mem_cons_self
    have back : divider.last < closer.first :=
      List.rel_of_pairwise_cons placed.order.of_cons (List.mem_singleton_self _)
    have divides : divider.first ≤ divider.last ∧ divider.last < a.slots.length :=
      within _ (placed.regions (divider, .divides) (List.mem_cons_of_mem _ List.mem_cons_self))
    rcases List.mem_pair.mp hx with rfl | rfl
    · exact ⟨opens.1, front, by simp only at closes ⊢; omega⟩
    · exact ⟨by simp only at opens ⊢; omega, back, closes.1⟩

variable (laminar : a.Laminar) {r : Region} (hr : r ∈ a.regions)
include laminar hr

/-- A choice covers what lies inside a marker or in the branch that is not chosen. -/
theorem Placed.covered_iff (condition : Bool) : (∃ w ∈ b.ranges condition, Covers w r) ↔
    (∃ m ∈ b.members, Covers (m.1.first, m.1.last) r) ∨
      ∃ x ∈ b.branch? (!condition), x.1.last < r.first ∧ r.last < x.2.first := by
  have pair {x : Region × Region} (hx : x ∈ b.branches) :
      Covers (x.1.first, x.2.last) r ↔ Covers (x.1.first, x.1.last) r ∨
        Covers (x.2.first, x.2.last) r ∨ x.1.last < r.first ∧ r.last < x.2.first := by
    obtain ⟨⟨_, first⟩, ⟨_, last⟩⟩ := ends_of_branch hx
    exact covers_pair within laminar (placed.regions _ first) (placed.regions _ last) hr
      (placed.branch within hx).2.1
  obtain ⟨opener, divider, closer⟩ := b
  cases divider with
  | none =>
    have whole := pair (List.mem_singleton_self (opener, closer))
    cases condition with
    | false => simp [ranges, members, branch?, whole, or_assoc]
    | true => simp [ranges, members, branch?, or_comm]
  | some divider =>
    have front := pair (x := (opener, divider)) List.mem_cons_self
    have back := pair (x := (divider, closer)) (List.mem_cons_of_mem _ (List.mem_singleton_self _))
    cases condition with
    | false => simp [ranges, members, branch?, front, or_assoc, or_left_comm]
    | true => simp [ranges, members, branch?, back, or_assoc, or_left_comm, or_comm]

/-- What lies around a range that is erased lies around the whole block. -/
theorem Placed.around (condition : Bool) : ∀ w ∈ b.ranges condition, r.first < w.1 → w.2 < r.last →
    r.Encloses b.opener ∧ r.Encloses b.closer := by
  have whole (m : Region × Marker) (hm : m ∈ b.members) (outer : r.Encloses m.1) :
      r.Encloses b.opener ∧ r.Encloses b.closer := by
    have sibling (n : Region × Marker) (hn : n ∈ b.members) : r.Encloses n.1 :=
      laminar.siblings _ (placed.regions m hm) _ (placed.regions n hn) r hr
        (placed.siblings m hm n hn) outer
    exact ⟨sibling _ opener_mem, sibling _ closer_mem⟩
  refine forall_ranges (fun m hm low high => whole m hm ⟨low, high⟩) ?_ condition
  refine placed.order.imp_of_mem fun {m n} hm hn before low high => whole m hm ⟨low, ?_⟩
  have := within n.1 (placed.regions n hn)
  simp only at high
  omega

end Placed

theorem uncut_ranges {a : Arena} (within : a.Within) (laminar : a.Laminar) {blocks : List Block}
    (paired : matchAll a = .ok blocks) {b : Block} (hb : b ∈ blocks) (condition : Bool) :
    ∀ w ∈ b.ranges condition, a.Uncut w :=
  (placed_of_matchAll laminar paired hb).uncut within laminar condition

end Block

end ChatCommands
