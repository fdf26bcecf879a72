import ChatCommands.Proofs.Resolution.Structured
import ChatCommands.Proofs.Template.Choosing

/-!
What the loop over the regions of a template meets.

The loop passes the regions from left to right. One that is live is replaced, or the branch of its
block is chosen, and either voids the regions in it. So whatever the loop has passed is void, and
with the opener of a block so are its other markers. A region that is still live has then no region
around it, no write has reached it, and it is the opener of its block if it is a marker at all.
-/

namespace ChatCommands

namespace Arena

/-! ### Regions without regions around them -/

section Laminar

variable {a : Arena} (within : a.Within) (laminar : a.Laminar) {r q : Region}
include within laminar

/-- Regions are numbered as they begin. -/
theorem Laminar.index_lt {i j : Nat} (hr : a.regions[i]? = some r) (hq : a.regions[j]? = some q)
    (before : r.first < q.first) : i < j := by
  obtain ⟨hi, rfl⟩ := List.getElem?_eq_some_iff.mp hr
  obtain ⟨hj, rfl⟩ := List.getElem?_eq_some_iff.mp hq
  have bounds := within _ (List.getElem_mem hj)
  refine Nat.lt_of_not_le fun later => ?_
  rcases Nat.lt_or_eq_of_le later with order | rfl
  · rcases List.pairwise_iff_getElem.mp laminar.apart j i hj hi order with beside | around
    · omega
    · exact Nat.lt_asymm around.1 before
  · exact Nat.lt_irrefl _ before

/-- A region that nothing lies around is inside no region but itself. -/
theorem Laminar.eq_of_covers (hr : r ∈ a.regions) (hq : q ∈ a.regions)
    (top : ∀ x ∈ a.regions, ¬ x.Encloses r) (covers : Covers (q.first, q.last) r) : r = q := by
  have bounds := within r hr
  obtain ⟨low, high⟩ := covers
  simp only at low high
  rcases laminar.compare hr hq with same | before | behind | around | inside
  · exact same
  · omega
  · omega
  · exact absurd low (Nat.not_le_of_lt around.1)
  · exact absurd inside (top q hq)

end Laminar

section Fresh

variable {t : Text} (h : Balanced t) {r q : Region}
include h

/-- A region without a parent is at the top: no region lies around it. -/
theorem top_fresh (hr : r ∈ (fresh t).regions) (top : r.parent = none) :
    r.depth = 0 ∧ ∀ x ∈ (fresh t).regions, ¬ x.Encloses r := by
  rw [fresh_regions] at hr ⊢
  obtain ⟨i, hi, rfl⟩ := List.mem_mapIdx.mp hr
  have member := List.getElem_mem hi
  have alone : ∀ s ∈ Span.spans t, ¬ s.Encloses (Span.spans t)[i] := by
    have parent := h.nested.parent _ member
    rw [Span.ParentIn, show (Span.spans t)[i].parent = none from top] at parent
    exact parent
  constructor
  · exact (h.nested.depth _ member).trans (Span.countP_beside alone)
  · intro x hx
    obtain ⟨j, hj, rfl⟩ := List.mem_mapIdx.mp hx
    rw [regionOf_encloses h (List.getElem_mem hj) member]
    exact alone _ (List.getElem_mem hj)

/-- The parent of a region lies around it and comes first. -/
theorem parent_fresh {i p : Nat} (here : (fresh t).regions[i]? = some r)
    (parent : r.parent = some p) :
    ∃ q, (fresh t).regions[p]? = some q ∧ q.Encloses r ∧ p < i := by
  have split := here
  rw [fresh_regions, List.getElem?_mapIdx, Option.map_eq_some_iff] at split
  obtain ⟨s, place, rfl⟩ := split
  have known := h.nested.parent s (List.mem_of_getElem? place)
  rw [Span.ParentIn, show s.parent = some p from parent] at known
  obtain ⟨outer, place', around, -⟩ := known
  have there : (fresh t).regions[p]? = some (regionOf (cuts t (Span.spans t)) p outer) := by
    rw [fresh_regions, List.getElem?_mapIdx, place']
    rfl
  have around : (regionOf (cuts t (Span.spans t)) p outer).Encloses
      (regionOf (cuts t (Span.spans t)) i s) :=
    (regionOf_encloses h (List.mem_of_getElem? place') (List.mem_of_getElem? place) p i).mpr around
  exact ⟨_, there, around, (laminar_fresh h).index_lt (within_fresh h) there here around.1⟩

theorem precedes_fresh (hr : r ∈ (fresh t).regions) (hq : q ∈ (fresh t).regions) :
    (fresh t).Precedes r q ↔ r.last < q.first := by
  have live := (tidy_fresh h).live
  exact stop_le_start (within_fresh h) (laminar_fresh h) ((Logged.start (tidy_fresh h)).solid h)
    (live ▸ hr) (live ▸ hq)

end Fresh

end Arena

/-! ### Blocks that are erased with their openers -/

namespace Block

open Arena

/-- The markers of a block stand between its two ends. -/
theorem Placed.between {a : Arena} {b : Block} (within : a.Within) (placed : Placed a b)
    {m : Region × Marker} (hm : m ∈ b.members) :
    b.opener.first ≤ m.1.first ∧ m.1.last ≤ b.closer.last := by
  have bounds (n : Region × Marker) (hn : n ∈ b.members) := within _ (placed.regions n hn)
  constructor
  · rcases List.mem_cons.mp hm with rfl | later
    · exact Nat.le_refl _
    · have order := List.rel_of_pairwise_cons placed.order later
      have opener := (bounds _ opener_mem).1
      exact Nat.le_trans opener (Nat.le_of_lt order)
  · have split : b.members =
        ((b.opener, .opens) :: b.divider.toList.map (·, .divides)) ++ [(b.closer, .closes)] := rfl
    have order := placed.order
    rw [split, List.pairwise_append] at order
    rw [split, List.mem_append, List.mem_singleton] at hm
    rcases hm with earlier | rfl
    · have before := order.2.2 m earlier _ (List.mem_singleton_self _)
      have closer := (bounds _ closer_mem).1
      exact Nat.le_trans (Nat.le_of_lt before) closer
    · exact Nat.le_refl _

/-- The branches of a block share no place. -/
theorem Placed.branch_unique {a : Arena} {b : Block} (within : a.Within) (placed : Placed a b)
    {x y : Region × Region} (hx : x ∈ b.branches) (hy : y ∈ b.branches) {k : Nat}
    (inside : x.1.last < k ∧ k < x.2.first) (inside' : y.1.last < k ∧ k < y.2.first) : x = y := by
  obtain ⟨opener, divider, closer⟩ := b
  cases divider with
  | none => exact (List.mem_singleton.mp hx).trans (List.mem_singleton.mp hy).symm
  | some divider =>
    have bounds : divider.first ≤ divider.last ∧ divider.last < a.slots.length :=
      within _ (placed.regions (divider, .divides) (List.mem_cons_of_mem _ List.mem_cons_self))
    have split : k < divider.first → divider.last < k → False := by omega
    rcases List.mem_pair.mp hx with rfl | rfl <;> rcases List.mem_pair.mp hy with rfl | rfl
    · rfl
    · exact (split inside.2 inside'.1).elim
    · exact (split inside'.2 inside.1).elim
    · rfl

section Fresh

variable {t : Text} (balanced : Balanced t) {blocks : List Block}
  (paired : matchAll (fresh t) = .ok blocks) {b c : Block} (hb : b ∈ blocks) (hc : c ∈ blocks)
include balanced paired hb hc

/-- A block whose opener stands in a branch of another lies in it as a whole. -/
theorem closer_in_branch (other : b ≠ c) (siblings : b.opener.parent = c.opener.parent)
    {x : Region × Region} (hx : x ∈ b.branches) (low : x.1.last < c.opener.first)
    (high : c.opener.last < x.2.first) : c.closer.last < x.2.first := by
  have within := within_fresh balanced
  have laminar := laminar_fresh balanced
  have pairs := pairs_of_matchAll (tidy_fresh balanced) laminar paired
  have placed_b := placed_of_matchAll laminar paired hb
  have placed_c := placed_of_matchAll laminar paired hc
  have branch := placed_b.branch within hx
  have opener := within _ placed_c.opener
  have closer := within _ placed_c.closer
  have order := placed_c.opener_before_closer
  rcases pairs.apart b hb c hc other siblings with
    before | behind | ⟨y, hy, around, -⟩ | ⟨y, hy, inside, closed⟩
  · rw [precedes_fresh balanced placed_b.closer placed_c.opener] at before
    omega
  · rw [precedes_fresh balanced placed_c.closer placed_b.opener] at behind
    omega
  · obtain ⟨⟨_, first⟩, -⟩ := ends_of_branch hy
    have before : y.1.last < b.opener.first :=
      (precedes_fresh balanced (placed_c.regions _ first) placed_b.opener).mp around
    have branch' := placed_c.branch within hy
    omega
  · obtain ⟨⟨_, first⟩, ⟨_, last⟩⟩ := ends_of_branch hy
    have inside : y.1.last < c.opener.first :=
      (precedes_fresh balanced (placed_b.regions _ first) placed_c.opener).mp inside
    have closed : c.closer.last < y.2.first :=
      (precedes_fresh balanced placed_c.closer (placed_b.regions _ last)).mp closed
    obtain rfl : x = y :=
      placed_b.branch_unique within hx hy ⟨low, by omega⟩ ⟨inside, by omega⟩
    exact closed

/-- A choice that covers the opener of a block at the top covers its other markers. -/
theorem members_covered (top_b : b.opener.parent = none) (top_c : c.opener.parent = none)
    {condition : Bool} (covered : ∃ w ∈ b.ranges condition, Covers w c.opener) :
    ∀ m ∈ c.members, ∃ w ∈ b.ranges condition, Covers w m.1 := by
  have within := within_fresh balanced
  have laminar := laminar_fresh balanced
  have pairs := pairs_of_matchAll (tidy_fresh balanced) laminar paired
  have placed_b := placed_of_matchAll laminar paired hb
  have placed_c := placed_of_matchAll laminar paired hc
  rcases (placed_b.covered_iff within laminar placed_c.opener condition).mp covered with
    ⟨m, hm, covers⟩ | ⟨x, hx, low, high⟩
  · obtain ⟨-, alone⟩ := top_fresh balanced placed_c.opener top_c
    have same := laminar.eq_of_covers within placed_c.opener (placed_b.regions m hm) alone covers
    -- The opener is a marker of one block only.
    have kind := (pairs.only c hc _ opener_mem).2
    have kind' := (pairs.only b hb m hm).2
    rw [← same, kind] at kind'
    obtain ⟨r, k⟩ := m
    obtain rfl : c.opener = r := same
    obtain rfl : Marker.opens = k := Option.some.inj kind'
    obtain rfl : b = c :=
      (pairs.once _ placed_c.opener _ kind).unique ⟨hb, hm⟩ ⟨hc, opener_mem⟩
    intro n hn
    rw [placed_b.covered_iff within laminar (placed_b.regions n hn)]
    exact .inl ⟨n, hn, Nat.le_refl _, Nat.le_refl _⟩
  · have branch := mem_branches hx
    have other : b ≠ c := by
      rintro rfl
      have := (placed_b.branch within branch).1
      omega
    have closed := closer_in_branch balanced paired hb hc other (top_b.trans top_c.symm) branch low
      high
    intro m hm
    have between := placed_c.between within hm
    rw [placed_b.covered_iff within laminar (placed_c.regions m hm)]
    exact .inr ⟨x, hx, by omega, by omega⟩

end Fresh

end Block

/-! ### The loop -/

/-- The verb that an arena shows for a region. -/
def Arena.verb (a : Arena) (r : Region) : Verb :=
  Verb.ofKeyword (Instruction.decode (a.regionText r)).keyword

theorem Arena.Logged.isVoid_iff {a₀ a : Arena} {log : List (Nat × Nat)} (logged : Logged a₀ a log)
    {i : Nat} {r : Region} (here : a₀.regions[i]? = some r) :
    a.isVoid i = true ↔ ∃ w ∈ log, Covers w r := by
  rw [← logged.regions, List.getElem?_map, Option.map_eq_some_iff] at here
  obtain ⟨q, place, rfl⟩ := here
  rw [isVoid, place]
  exact logged.void q (List.mem_of_getElem? place)

theorem Arena.regionText_congr {a b : Arena} {r : Region}
    (same : ∀ k, r.first ≤ k → k ≤ r.last → a.slots[k]? = b.slots[k]?) :
    a.regionText r = b.regionText r := by
  rw [regionText, regionText]
  congr 1
  apply List.ext_getElem?
  intro k
  rw [List.getElem?_drop, List.getElem?_drop, List.getElem?_take, List.getElem?_take]
  split
  · exact same _ (Nat.le_add_right _ _) (by omega)
  · rfl

theorem Verb.marker_of_eq {keyword : Text} (h : Verb.ofKeyword keyword = .marker) :
    ∃ kind ≠ .opens, Marker.ofKeyword? keyword = some kind := by
  have listed : (keyword, Verb.ofKeyword keyword) ∈ Verb.keywords :=
    Verb.mem_keywords (by simp [h])
  rw [h] at listed
  have either : keyword = "else".toList ∨ keyword = "fi".toList := by
    simpa [Verb.keywords] using listed
  rcases either with rfl | rfl
  · exact ⟨.divides, by decide, rfl⟩
  · exact ⟨.closes, by decide, rfl⟩

/-- Where the loop over the regions of an arena can stand: the regions that are left, and what
became of the arena. -/
inductive Passing (a₀ : Arena) (blocks : List Block) : List Region → Arena → Prop where
  | start : Passing a₀ blocks a₀.regions a₀
  | skipped {r : Region} {rest : List Region} {a : Arena} : Passing a₀ blocks (r :: rest) a →
      a.isVoid r.index = true → Passing a₀ blocks rest a
  | replaced {r : Region} {rest : List Region} {a : Arena} (new : Text) :
      Passing a₀ blocks (r :: rest) a → a.isVoid r.index = false → a.verb r ≠ .condition →
      Passing a₀ blocks rest (a.replace r new).2
  | chosen {r : Region} {rest : List Region} {a : Arena} {b : Block} (holds : Bool) :
      Passing a₀ blocks (r :: rest) a → a.isVoid r.index = false → a.verb r = .condition →
      blocks.find? (fun b => b.opener.index == r.index) = some b →
      Passing a₀ blocks rest (b.choose holds a)

namespace Passing

open Arena

/-- What holds when the loop has passed the regions `done`. -/
structure Behind (a₀ : Arena) (blocks : List Block) (done : List Region) (a : Arena)
    (log : List (Nat × Nat)) : Prop where
  logged : Logged a₀ a log
  outer : ∀ w ∈ log, ∀ r ∈ a₀.regions, r.parent = none → ¬ (r.first < w.1 ∧ w.2 < r.last)
  passed : ∀ r ∈ done, ∃ w ∈ log, Covers w r
  whole : ∀ b ∈ blocks, b.opener.parent = none → (∃ w ∈ log, Covers w b.opener) →
    ∀ m ∈ b.members, ∃ w ∈ log, Covers w m.1

/-- A step that covers the next region, and blocks at the top as a whole, keeps what holds. -/
theorem Behind.extend {a₀ a a' : Arena} {blocks : List Block} {done : List Region} {r : Region}
    {log more : List (Nat × Nat)} (behind : Behind a₀ blocks done a log)
    (logged : Logged a₀ a' (log ++ more))
    (outer : ∀ w ∈ more, ∀ q ∈ a₀.regions, q.parent = none → ¬ (q.first < w.1 ∧ w.2 < q.last))
    (passed : ∃ w ∈ more, Covers w r)
    (whole : ∀ b ∈ blocks, b.opener.parent = none → (∃ w ∈ more, Covers w b.opener) →
      ∀ m ∈ b.members, ∃ w ∈ more, Covers w m.1) :
    Behind a₀ blocks (done ++ [r]) a' (log ++ more) := by
  have earlier {q : Region} : (∃ w ∈ log, Covers w q) → ∃ w ∈ log ++ more, Covers w q :=
    fun ⟨w, hw, covers⟩ => ⟨w, List.mem_append_left _ hw, covers⟩
  have later {q : Region} : (∃ w ∈ more, Covers w q) → ∃ w ∈ log ++ more, Covers w q :=
    fun ⟨w, hw, covers⟩ => ⟨w, List.mem_append_right _ hw, covers⟩
  refine ⟨logged, List.forall_mem_append.mpr ⟨behind.outer, outer⟩, ?_, ?_⟩
  · exact List.forall_mem_append.mpr
      ⟨fun q hq => earlier (behind.passed q hq), List.forall_mem_singleton.mpr (later passed)⟩
  · rintro b hb top ⟨w, hw, covers⟩ m hm
    rcases List.mem_append.mp hw with hw | hw
    · exact earlier (behind.whole b hb top ⟨w, hw, covers⟩ m hm)
    · exact later (whole b hb top ⟨w, hw, covers⟩ m hm)

/-- What the loop meets at a region that is live. -/
structure Met (a₀ : Arena) (blocks : List Block) (r : Region) (a : Arena) : Prop where
  top : r.parent = none ∧ r.depth = 0
  unwritten : ∀ k, r.first ≤ k → k ≤ r.last → ∃ s, a.slots[k]? = some s ∧ s.written = false
  text : a.regionText r = a₀.regionText r
  unmarked : a.verb r ≠ .marker
  block : a.verb r = .condition → ∃ b ∈ blocks, b.opener = r ∧
    blocks.find? (fun b => b.opener.index == r.index) = some b

section Fresh

variable {t : Text} (balanced : Balanced t) {blocks : List Block}
  (paired : Block.matchAll (fresh t) = .ok blocks) {done rest : List Region} {r : Region}
  {a : Arena} {log : List (Nat × Nat)} (split : (fresh t).regions = done ++ r :: rest)
  (behind : Behind (fresh t) blocks done a log)
include balanced

include split in
theorem number_eq : (fresh t).regions[r.index]? = some r ∧ r.index = done.length := by
  have here : (fresh t).regions[done.length]? = some r := by
    rw [split, List.getElem?_append_right (Nat.le_refl _), Nat.sub_self]
    rfl
  have number := (tidy_fresh balanced).numbered _ r here
  exact ⟨number ▸ here, number⟩

include split behind in
/-- What begins in front of the regions that are left is covered. -/
theorem Behind.covered {q : Region} (hq : q ∈ (fresh t).regions) (before : q.first < r.first) :
    ∃ w ∈ log, Covers w q := by
  obtain ⟨here, number⟩ := number_eq balanced split
  obtain ⟨i, place⟩ := List.mem_iff_getElem?.mp hq
  have earlier := (laminar_fresh balanced).index_lt (within_fresh balanced) place here before
  rw [split, List.getElem?_append_left (by omega)] at place
  exact behind.passed q (List.mem_of_getElem? place)

include split behind in
theorem Behind.isVoid_iff : a.isVoid r.index = true ↔ ∃ w ∈ log, Covers w r :=
  behind.logged.isVoid_iff (number_eq balanced split).1

include split behind paired in
theorem Behind.met (live : a.isVoid r.index = false) : Met (fresh t) blocks r a := by
  have within := within_fresh balanced
  have laminar := laminar_fresh balanced
  have tidy := tidy_fresh balanced
  have pairs := Block.pairs_of_matchAll tidy laminar paired
  obtain ⟨here, number⟩ := number_eq balanced split
  have member := List.mem_of_getElem? here
  have bounds := within r member
  have spared : ¬ ∃ w ∈ log, Covers w r := by
    rw [← behind.isVoid_iff balanced split, live]
    exact Bool.false_ne_true
  have top : r.parent = none := by
    cases parent : r.parent with
    | none => rfl
    | some p =>
      obtain ⟨q, place, around, -⟩ := parent_fresh balanced here parent
      obtain ⟨w, hw, low, high⟩ :=
        behind.covered balanced split (List.mem_of_getElem? place) around.1
      exact absurd ⟨w, hw, Nat.le_trans low (Nat.le_of_lt around.1),
        Nat.le_trans (Nat.le_of_lt around.2) high⟩ spared
  -- A write that reaches the region would cut it, cover it or lie strictly inside.
  have untouched {k : Nat} (low : r.first ≤ k) (high : k ≤ r.last) :
      a.slots[k]? = (fresh t).slots[k]? := by
    refine behind.logged.slot_eq (by rw [behind.logged.count]; omega) fun w hw touched => ?_
    have touched : w.1 ≤ k ∧ k ≤ w.2 := touched
    rcases (behind.logged.uncut w hw).spares r member with covers | ahead | back | around
    · exact spared ⟨w, hw, covers⟩
    · omega
    · omega
    · exact behind.outer w hw r member top around
  have text : a.regionText r = (fresh t).regionText r :=
    regionText_congr fun k => untouched
  constructor
  · exact ⟨top, (top_fresh balanced member top).1⟩
  · intro k low high
    have inside : k < (fresh t).slots.length := by omega
    refine ⟨_, (untouched low high).trans (List.getElem?_eq_getElem inside), ?_⟩
    exact unwritten_fresh (List.getElem?_eq_getElem inside)
  · exact text
  · intro marker
    rw [verb, text] at marker
    obtain ⟨kind, other, known⟩ := Verb.marker_of_eq marker
    obtain ⟨b, ⟨hb, hm⟩, -⟩ := pairs.once r member kind known
    have placed := Block.placed_of_matchAll laminar paired hb
    have top_b : b.opener.parent = none := (pairs.parent b hb _ hm).symm.trans top
    -- The opener of its block stands in front, so that it is covered, and with it the marker.
    have before : b.opener.last < r.first := by
      rcases List.mem_cons.mp hm with same | later
      · cases same
        exact absurd rfl other
      · exact List.rel_of_pairwise_cons placed.order later
    have opener := (within _ placed.opener).1
    have covered := behind.covered balanced split placed.opener (by omega)
    exact spared (behind.whole b hb top_b covered _ hm)
  · intro opens
    rw [verb, text] at opens
    obtain ⟨b, ⟨hb, hm⟩, -⟩ := pairs.once r member _ (Verb.ofKeyword_eq_condition.mp opens)
    obtain ⟨group, found, within_group⟩ := (Block.matchAll_groups paired).2 b hb
    have same : b.opener = r := by
      simpa [Block.members, eq_comm] using hm
    exact ⟨b, hb, same, same ▸ Block.find_of_mem tidy paired found within_group⟩

include split behind in
theorem Behind.skip (void : a.isVoid r.index = true) :
    Behind (fresh t) blocks (done ++ [r]) a log := by
  have covered := (behind.isVoid_iff balanced split).mp void
  exact { behind with
    passed := List.forall_mem_append.mpr ⟨behind.passed, List.forall_mem_singleton.mpr covered⟩ }

include split behind paired

theorem Behind.replace (live : a.isVoid r.index = false) (other : a.verb r ≠ .condition)
    (new : Text) :
    Behind (fresh t) blocks (done ++ [r]) (a.replace r new).2 (log ++ [(r.first, r.last)]) := by
  have within := within_fresh balanced
  have laminar := laminar_fresh balanced
  have met := behind.met balanced paired split live
  have member := List.mem_of_getElem? (number_eq balanced split).1
  refine behind.extend (behind.logged.write (uncut_region within laminar member) new) ?_ ?_ ?_
  · refine List.forall_mem_singleton.mpr fun q hq _ around => ?_
    exact (top_fresh balanced member met.top.1).2 q hq around
  · exact ⟨_, List.mem_cons_self, Nat.le_refl _, Nat.le_refl _⟩
  -- An opener that is covered now would be the region itself, which opens nothing.
  · rintro b hb top ⟨w, hw, covers⟩
    obtain rfl := List.mem_singleton.mp hw
    have placed := Block.placed_of_matchAll laminar paired hb
    have same : b.opener = r := laminar.eq_of_covers within placed.opener member
      (top_fresh balanced placed.opener top).2 covers
    have pairs := Block.pairs_of_matchAll (tidy_fresh balanced) laminar paired
    have opens := (pairs.only b hb _ Block.opener_mem).2
    rw [same, ← met.text] at opens
    exact absurd (Verb.ofKeyword_eq_condition.mpr opens) other

theorem Behind.choose (live : a.isVoid r.index = false) {b : Block} (hb : b ∈ blocks)
    (same : b.opener = r) (holds : Bool) :
    Behind (fresh t) blocks (done ++ [r]) (b.choose holds a) (log ++ b.ranges holds) := by
  have within := within_fresh balanced
  have laminar := laminar_fresh balanced
  have met := behind.met balanced paired split live
  have placed := Block.placed_of_matchAll laminar paired hb
  have top : b.opener.parent = none := same ▸ met.top.1
  have logged : Logged (fresh t) (b.choose holds a) (log ++ b.ranges holds) := by
    rw [Block.choose_eq]
    exact behind.logged.foldl (placed.uncut within laminar holds)
  refine behind.extend logged ?_ ?_ ?_
  · intro w hw q hq _ around
    have outer := placed.around within laminar hq holds w hw around.1 around.2
    exact (top_fresh balanced placed.opener top).2 q hq outer.1
  · have opener : ∃ m ∈ b.members, Covers (m.1.first, m.1.last) b.opener :=
      ⟨_, Block.opener_mem, Nat.le_refl _, Nat.le_refl _⟩
    exact same ▸ (placed.covered_iff within laminar placed.opener holds).mpr (.inl opener)
  · exact fun c hc top_c => Block.members_covered balanced paired hb hc top top_c

end Fresh

section Run

variable {t : Text} (balanced : Balanced t) {blocks : List Block}
  (paired : Block.matchAll (fresh t) = .ok blocks)
include balanced paired

/-- The loop stands behind regions that are covered, wherever it stands. -/
theorem behind {rest : List Region} {a : Arena} (h : Passing (fresh t) blocks rest a) :
    ∃ done log, (fresh t).regions = done ++ rest ∧ Behind (fresh t) blocks done a log := by
  induction h with
  | start =>
    refine ⟨[], [], rfl, .start (tidy_fresh balanced), by simp, by simp, ?_⟩
    rintro b - - ⟨w, none, -⟩
    cases none
  | skipped _ void ih =>
    obtain ⟨done, log, split, behind⟩ := ih
    exact ⟨_, log, by simp [split], behind.skip balanced split void⟩
  | replaced new _ live other ih =>
    obtain ⟨done, log, split, behind⟩ := ih
    exact ⟨_, _, by simp [split], behind.replace balanced paired split live other new⟩
  | chosen holds _ live opens found ih =>
    obtain ⟨done, log, split, behind⟩ := ih
    obtain ⟨b, hb, same, found'⟩ := (behind.met balanced paired split live).block opens
    obtain rfl := Option.some.inj (found'.symm.trans found)
    exact ⟨_, _, by simp [split], behind.choose balanced paired split live hb same holds⟩

/-- Whatever the loop has done before, a live region that it comes to is at the top, still has its
text, and is the opener of its block if it is a marker. -/
theorem met {rest : List Region} {r : Region} {a : Arena}
    (h : Passing (fresh t) blocks (r :: rest) a) (live : a.isVoid r.index = false) :
    Met (fresh t) blocks r a := by
  obtain ⟨done, log, split, behind⟩ := h.behind balanced paired
  exact behind.met balanced paired split live

end Run

end Passing

end ChatCommands
