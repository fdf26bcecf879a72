import ChatCommands.Proofs.Template.Rewriting

/-!
What becomes of a buffer when a branch of a block is chosen.

The markers and the other branch are cut out of the text between the two ends of the block. A
region that is live is cut out with them, stands beside them with its text as it was, or lies around
the whole block.
-/

namespace ChatCommands

namespace Text

/-- Where a part of a text was exchanged, what lies around the part shows the exchange. -/
theorem slice_splice {t : Text} {s p q e : Nat} (new : Text) (before : s ≤ p) (order : p ≤ q)
    (behind : q ≤ e) (inside : e ≤ t.length) :
    slice (t.take p ++ new ++ t.drop q) s (p + new.length + (e - q)) =
      t.slice s p ++ new ++ t.slice q e := by
  have front : (t.take p).length = p := by
    rw [List.length_take]
    omega
  have middle : (t.take p ++ new).length = p + new.length := by
    rw [List.length_append, front]
  have short : s ≤ (t.take p ++ new).length := by omega
  have back : (t.drop q).take (e - q) = t.slice q e := by
    rw [slice, List.drop_take]
  rw [slice, ← middle, List.take_length_add_append, back, List.append_assoc,
    List.drop_append_of_le_length (by omega), List.append_assoc]
  rfl

end Text

namespace Arena

theorem regionText_eq_slice (a : Arena) {r : Region} (order : r.first ≤ r.last) :
    a.regionText r = a.text.slice (a.start r) (a.stop r) := by
  let front : Arena := ⟨a.slots.take (r.last + 1), []⟩
  have whole : a.text.take (a.stop r) = front.text := (a.text_cut (r.last + 1)).1
  have start : front.offset r.first = a.start r := by
    rw [offset_eq, start, offset_eq, List.take_take, Nat.min_eq_left (by omega)]
  rw [Text.slice, whole, ← start, (front.text_cut r.first).2, regionText]

theorem offset_le_length (a : Arena) (k : Nat) : a.offset k ≤ a.text.length := by
  rw [offset_eq, ← (a.text_cut k).1, List.length_take]
  exact Nat.min_le_right _ _

/-- Whether the slots from `first` to `last` were rewritten, so that they show `new` now. -/
structure Recut (a : Arena) (first last : Nat) (new : Text) (a' : Arena) : Prop where
  text : a'.text = a.text.take (a.offset first) ++ new ++ a.text.drop (a.offset (last + 1))
  before : ∀ k ≤ first, a'.offset k = a.offset k
  behind : ∀ k, last < k →
    a'.offset k + a.offset (last + 1) = a.offset k + (a.offset first + new.length)

section Recut

variable {a : Arena}

theorem recut_write {first last : Nat} (order : first ≤ last) (inside : last < a.slots.length)
    (new : Text) : Recut a first last new (a.write first last new) where
  text := text_write order inside new
  before _ := offset_write_before order inside new
  behind _ := offset_write_behind order inside new

/-- Two ranges are erased, the one behind the other first. -/
theorem recut_twice (lo hi : Nat × Nat) (first : lo.1 ≤ lo.2) (apart : lo.2 < hi.1)
    (last : hi.1 ≤ hi.2) (inside : hi.2 < a.slots.length) :
    Recut a lo.1 hi.2 (a.text.slice (a.offset (lo.2 + 1)) (a.offset hi.1))
      ((a.write hi.1 hi.2 []).write lo.1 lo.2 []) := by
  have back := recut_write last inside []
  -- The cut behind moves nothing in front of it, so the cut in front is made where it would be.
  have count : lo.2 < (a.write hi.1 hi.2 []).slots.length := by
    rw [slots_length_write]
    omega
  have front := recut_write first count []
  have low := a.offset_le_offset (j := lo.1) (k := lo.2 + 1) (by omega)
  have gap := a.offset_le_offset (j := lo.2 + 1) (k := hi.1) (by omega)
  have high := a.offset_le_offset (j := hi.1) (k := hi.2 + 1) (by omega)
  have reach := a.offset_le_length hi.1
  have start := back.before lo.1 (by omega)
  have stop := back.before (lo.2 + 1) (by omega)
  have length : (a.text.slice (a.offset (lo.2 + 1)) (a.offset hi.1)).length =
      a.offset hi.1 - a.offset (lo.2 + 1) := by
    rw [Text.slice, List.length_drop, List.length_take, Nat.min_eq_left reach]
  constructor
  · rw [front.text, back.text, start, stop, List.append_nil, List.append_nil, Text.slice,
      List.take_append_of_le_length (by rw [List.length_take]; omega), List.take_take,
      Nat.min_eq_left (by omega), List.drop_append_of_le_length (by rw [List.length_take]; omega),
      List.append_assoc]
  · intro k before
    rw [front.before k before, back.before k (by omega)]
  · intro k behind
    have moved := front.behind k (by omega)
    have moved' := back.behind k behind
    rw [start, stop] at moved
    simp only [List.length_nil] at moved moved'
    omega

theorem Recut.regionText_around {a' : Arena} {first last : Nat} {new : Text}
    (recut : Recut a first last new a') {r : Region} (order : first ≤ last)
    (before : r.first ≤ first) (behind : last ≤ r.last) :
    a'.regionText r =
      a.text.slice (a.start r) (a.offset first) ++ new ++
        a.text.slice (a.offset (last + 1)) (a.stop r) := by
  have start : a'.start r = a.start r := recut.before _ before
  have stop := recut.behind (r.last + 1) (by omega)
  have low : a.start r ≤ a.offset first := a.offset_le_offset before
  have gap := a.offset_le_offset (j := first) (k := last + 1) (by omega)
  have high := a.offset_le_offset (j := last + 1) (k := r.last + 1) (by omega)
  have moved : a'.stop r = a.offset first + new.length + (a.stop r - a.offset (last + 1)) := by
    rw [Arena.stop, Arena.stop]
    omega
  rw [regionText_eq_slice a' (by omega), recut.text, start, moved]
  exact Text.slice_splice new low gap high (a.offset_le_length _)

end Recut

theorem regionText_foldl {a : Arena} {r : Region} {ws : List (Nat × Nat)}
    (apart : ∀ w ∈ ws, w.1 ≤ w.2 ∧ w.2 < a.slots.length ∧ (r.last < w.1 ∨ w.2 < r.first)) :
    (ws.foldl (fun a w => a.write w.1 w.2 []) a).regionText r = a.regionText r := by
  induction ws generalizing a with
  | nil => rfl
  | cons w ws ih =>
    obtain ⟨⟨order, inside, side⟩, rest⟩ := List.forall_mem_cons.mp apart
    have first : (a.write w.1 w.2 []).regionText r = a.regionText r := by
      rcases side with before | behind
      · exact regionText_write_before order inside [] before
      · exact regionText_write_behind order inside [] behind
    rw [List.foldl_cons, ih (by rwa [slots_length_write]), first]

theorem live_write {a : Arena} {first last : Nat} {new : Text} {r : Region} :
    r ∈ (a.write first last new).live ↔ r ∈ a.live ∧ ¬ Covers (first, last) r := by
  have stays (q : Region) (uncovered : ¬ (first ≤ q.first ∧ q.last ≤ last)) :
      { q with void := q.void || decide (first ≤ q.first ∧ q.last ≤ last) } = q := by
    rw [decide_eq_false uncovered, Bool.or_false]
  simp only [live, write, List.mem_filter, List.mem_map, Bool.not_eq_eq_eq_not, Bool.not_true]
  constructor
  · rintro ⟨⟨q, hq, rfl⟩, spared⟩
    obtain ⟨live, uncovered⟩ := Bool.or_eq_false_iff.mp spared
    have uncovered := of_decide_eq_false uncovered
    rw [stays q uncovered]
    exact ⟨⟨hq, live⟩, uncovered⟩
  · rintro ⟨⟨hr, live⟩, uncovered⟩
    exact ⟨⟨r, hr, stays r uncovered⟩, live⟩

theorem live_foldl {a : Arena} {ws : List (Nat × Nat)} {r : Region} :
    r ∈ (ws.foldl (fun a w => a.write w.1 w.2 []) a).live ↔
      r ∈ a.live ∧ ∀ w ∈ ws, ¬ Covers w r := by
  induction ws generalizing a with
  | nil => simp
  | cons w ws ih => rw [List.foldl_cons, ih, live_write, List.forall_mem_cons, and_assoc]

/-- Whether the first slot of every live region has text. -/
def Solid (a : Arena) : Prop :=
  ∀ r ∈ a.live, a.offset r.first < a.offset (r.first + 1)

section Solid

variable {a : Arena} (within : a.Within) (laminar : a.Laminar) (solid : a.Solid) {r q : Region}
  (hr : r ∈ a.live) (hq : q ∈ a.live)
include within laminar solid hr hq

/-- Live regions stand in the text as they stand in the slots. -/
theorem stop_le_start : a.stop r ≤ a.start q ↔ r.last < q.first := by
  have order_r := within r (List.mem_of_mem_filter hr)
  have order_q := within q (List.mem_of_mem_filter hq)
  have some_r := solid r hr
  have some_q := solid q hq
  have rest_r := a.offset_le_offset (j := r.first + 1) (k := r.last + 1) (by omega)
  have rest_q := a.offset_le_offset (j := q.first + 1) (k := q.last + 1) (by omega)
  refine ⟨fun before => ?_, fun before => a.offset_le_offset before⟩
  -- Two regions could share a place in the text only if one of them had none.
  simp only [start, stop] at before
  rcases laminar.compare (List.mem_of_mem_filter hr) (List.mem_of_mem_filter hq) with
    rfl | order | behind | around | inside
  · omega
  · exact order
  · have := a.offset_le_offset (j := q.last + 1) (k := r.first) (by omega)
    omega
  · have := a.offset_le_offset (j := q.last + 1) (k := r.last + 1) (by have := around.2; omega)
    omega
  · have := a.offset_le_offset (j := q.first + 1) (k := r.first) (by have := inside.1; omega)
    omega

theorem inside_iff_covers :
    a.start q ≤ a.start r ∧ a.stop r ≤ a.stop q ↔ Covers (q.first, q.last) r := by
  have order_r := within r (List.mem_of_mem_filter hr)
  have order_q := within q (List.mem_of_mem_filter hq)
  have some_r := solid r hr
  have rest_r := a.offset_le_offset (j := r.first + 1) (k := r.last + 1) (by omega)
  constructor
  · rintro ⟨low, high⟩
    simp only [start, stop] at low high
    rcases laminar.compare (List.mem_of_mem_filter hr) (List.mem_of_mem_filter hq) with
      rfl | before | behind | around | inside
    · exact ⟨Nat.le_refl _, Nat.le_refl _⟩
    · have := a.offset_le_offset (j := r.last + 1) (k := q.first) (by omega)
      omega
    · have := a.offset_le_offset (j := q.last + 1) (k := r.first) (by omega)
      omega
    · have := a.offset_le_offset (j := r.first + 1) (k := q.first) (by have := around.1; omega)
      omega
    · exact ⟨Nat.le_of_lt inside.1, Nat.le_of_lt inside.2⟩
  · rintro ⟨low, high⟩
    exact ⟨a.offset_le_offset low, a.offset_le_offset (Nat.succ_le_succ high)⟩

end Solid

/-- Where a text begins with a brace, the region that opens there has text in its first slot. -/
theorem Logged.solid {t : Text} (balanced : Balanced t) {a : Arena} {log : List (Nat × Nat)}
    (logged : Logged (fresh t) a log) : a.Solid := by
  intro r hr
  obtain ⟨_, first, head⟩ := (logged.braces balanced hr).1
  exact offset_lt_offset first (List.mem_of_head? head) (Nat.le_refl _) (Nat.lt_succ_self _)

theorem Logged.laminar {a₀ a : Arena} {log : List (Nat × Nat)} (logged : Logged a₀ a log)
    (laminar : a₀.Laminar) : a.Laminar where
  apart := logged.apart laminar
  siblings r hr q hq x hx := laminar.siblings { r with void := false } (logged.region hr)
    { q with void := false } (logged.region hq) { x with void := false } (logged.region hx)

end Arena

namespace Block

open Arena

/-- All that a choice does to the text between the two ends of the block. -/
theorem Placed.recut {a : Arena} {b : Block} (within : a.Within) (placed : Placed a b)
    (condition : Bool) :
    Recut a b.opener.first b.closer.last
      (((b.branch? condition).map fun x => a.text.slice (a.stop x.1) (a.start x.2)).getD [])
      (b.choose condition a) := by
  have opener := within _ placed.opener
  have closer := within _ placed.closer
  have order := placed.opener_before_closer
  rw [choose_eq, ranges_eq]
  cases chosen : b.branch? condition with
  | none => exact recut_write (by omega) closer.2 []
  | some x =>
    have order := placed.branch within (mem_branches chosen)
    exact recut_twice (b.opener.first, x.1.last) (x.2.first, b.closer.last) order.1 order.2.1
      order.2.2 closer.2

end Block

namespace Buffer

open Arena

/-- The text between the markers of the branch that a condition chooses. -/
def choice (b : Buffer) (block : Block) (condition : Bool) : Text :=
  match block.branch? condition with
  | some (front, back) => b.text.slice (b.stop front).1 (b.start back).1
  | none => []

/-- Whether the text of a region is cut out by a choice: it lies in a marker or in the branch that
is not chosen. -/
def Dropped (b : Buffer) (block : Block) (condition : Bool) (r : Region) : Prop :=
  (∃ m ∈ block.members, (b.start m.1).1 ≤ (b.start r).1 ∧ (b.stop r).1 ≤ (b.stop m.1).1) ∨
    ∃ x ∈ block.branch? (!condition),
      (b.stop x.1).1 ≤ (b.start r).1 ∧ (b.stop r).1 ≤ (b.start x.2).1

/-- Whether the text of a region reaches over the block. -/
def Surrounds (b : Buffer) (block : Block) (r : Region) : Prop :=
  (b.start r).1 ≤ (b.start block.opener).1 ∧ (b.stop block.closer).1 ≤ (b.stop r).1

/-- What the choice of a branch makes of a buffer, by the offsets before it. -/
structure Chosen (b : Buffer) (block : Block) (condition : Bool) (b' : Buffer) : Prop where
  text : b'.text = b.text.take (b.start block.opener).1 ++ b.choice block condition ++
    b.text.drop (b.stop block.closer).1
  live : ∀ r, r ∈ b'.arena.live ↔ r ∈ b.arena.live ∧ ¬ b.Dropped block condition r
  beside : ∀ r ∈ b'.arena.live, ¬ b.Surrounds block r →
    b'.arena.regionText r = b.arena.regionText r
  around : ∀ r ∈ b'.arena.live, b.Surrounds block r →
    b'.arena.regionText r = b.text.slice (b.start r).1 (b.start block.opener).1 ++
      b.choice block condition ++ b.text.slice (b.stop block.closer).1 (b.stop r).1

theorem ne_opener_of_spared {b : Buffer} {block : Block} {condition : Bool} {r : Region}
    (spared : ¬ b.Dropped block condition r) : r ≠ block.opener := by
  rintro rfl
  exact spared (.inl ⟨_, Block.opener_mem, Nat.le_refl _, Nat.le_refl _⟩)

section Choose

variable {b : Buffer} {block : Block} (fresh : b.Fresh) (within : b.arena.Within)
  (laminar : b.arena.Laminar) (solid : b.arena.Solid) (placed : block.Placed b.arena)
  (live : ∀ m ∈ block.members, m.1 ∈ b.arena.live)
include fresh within

theorem start_of_mem {r : Region} (hr : r ∈ b.arena.regions) : (b.start r).1 = b.arena.start r :=
  fresh.start_eq (by have := within r hr; omega)

theorem stop_of_mem {r : Region} (hr : r ∈ b.arena.regions) : (b.stop r).1 = b.arena.stop r :=
  fresh.stop_eq (within r hr).2

theorem choice_eq (placed : block.Placed b.arena) (condition : Bool) : b.choice block condition =
    ((block.branch? condition).map fun x =>
      b.arena.text.slice (b.arena.stop x.1) (b.arena.start x.2)).getD [] := by
  rw [choice]
  split
  next front back chosen =>
    obtain ⟨⟨_, first⟩, ⟨_, last⟩⟩ := Block.ends_of_branch (Block.mem_branches chosen)
    rw [chosen, stop_of_mem fresh within (placed.regions _ first),
      start_of_mem fresh within (placed.regions _ last), Option.map_some, Option.getD_some, text]
  next chosen => rw [chosen, Option.map_none, Option.getD_none]

include laminar solid placed live

theorem dropped_iff (condition : Bool) {r : Region} (hr : r ∈ b.arena.live) :
    b.Dropped block condition r ↔ ∃ w ∈ block.ranges condition, Covers w r := by
  have inside (q : Region) (hq : q ∈ b.arena.live) := inside_iff_covers within laminar solid hr hq
  have member := List.mem_of_mem_filter hr
  rw [placed.covered_iff within laminar member, Dropped]
  refine or_congr (exists_congr fun m => and_congr_right fun hm => ?_)
    (exists_congr fun x => and_congr_right fun hx => ?_)
  · rw [start_of_mem fresh within member, stop_of_mem fresh within member,
      start_of_mem fresh within (placed.regions m hm),
      stop_of_mem fresh within (placed.regions m hm), inside _ (live m hm)]
  · obtain ⟨⟨_, first⟩, ⟨_, last⟩⟩ := Block.ends_of_branch (Block.mem_branches hx)
    rw [start_of_mem fresh within member, stop_of_mem fresh within member,
      stop_of_mem fresh within (placed.regions _ first),
      start_of_mem fresh within (placed.regions _ last),
      stop_le_start within laminar solid (live _ first) hr,
      stop_le_start within laminar solid hr (live _ last)]

theorem surrounds_iff {r : Region} (hr : r ∈ b.arena.live) (other : r ≠ block.opener) :
    b.Surrounds block r ↔ r.Encloses block.opener ∧ r.Encloses block.closer := by
  have member := List.mem_of_mem_filter hr
  have opener := placed.opener
  have closer := placed.closer
  have order := placed.opener_before_closer
  have bounds := within _ closer
  rw [Surrounds, start_of_mem fresh within member, stop_of_mem fresh within member,
    start_of_mem fresh within opener, stop_of_mem fresh within closer]
  constructor
  · rintro ⟨low, high⟩
    have reach : b.arena.stop block.opener ≤ b.arena.stop block.closer :=
      b.arena.offset_le_offset (by omega)
    have covered := (inside_iff_covers within laminar solid (live _ Block.opener_mem) hr).mp
      ⟨low, Nat.le_trans reach high⟩
    have outer : r.Encloses block.opener := by
      have order := (within _ opener).1
      rcases laminar.compare member opener with same | before | behind | outer | inner
      · exact absurd same other
      · exact absurd (Nat.le_trans order covered.2) (Nat.not_le_of_lt before)
      · exact absurd (Nat.le_trans covered.1 order) (Nat.not_le_of_lt behind)
      · exact outer
      · exact absurd covered.1 (Nat.not_le_of_lt inner.1)
    -- What lies around one marker of the block lies around its siblings.
    exact ⟨outer, laminar.siblings _ opener _ closer r member
      (placed.siblings _ Block.opener_mem _ Block.closer_mem) outer⟩
  · rintro ⟨first, last⟩
    exact ⟨b.arena.offset_le_offset (Nat.le_of_lt first.1),
      b.arena.offset_le_offset (Nat.succ_le_succ (Nat.le_of_lt last.2))⟩

theorem live_choose (condition : Bool) {r : Region} :
    r ∈ (b.choose block condition).arena.live ↔
      r ∈ b.arena.live ∧ ¬ b.Dropped block condition r := by
  rw [choose, ofArena, Block.choose_eq, live_foldl]
  refine and_congr_right fun hr => ?_
  rw [dropped_iff fresh within laminar solid placed live condition hr]
  simp only [not_exists, not_and]

theorem regionText_beside {condition : Bool} {r : Region} (hr : r ∈ b.arena.live)
    (spared : ¬ b.Dropped block condition r) (beside : ¬ b.Surrounds block r) :
    (b.choose block condition).arena.regionText r = b.arena.regionText r := by
  have member := List.mem_of_mem_filter hr
  have other := ne_opener_of_spared spared
  rw [surrounds_iff fresh within laminar solid placed live hr other] at beside
  rw [dropped_iff fresh within laminar solid placed live condition hr] at spared
  rw [choose, ofArena, Block.choose_eq]
  refine regionText_foldl fun w hw => ?_
  have uncut := placed.uncut within laminar condition w hw
  refine ⟨uncut.order, placed.inside within condition w hw, ?_⟩
  rcases uncut.spares r member with covered | behind | before | around
  · exact absurd ⟨w, hw, covered⟩ spared
  · exact .inr behind
  · exact .inl before
  · exact absurd (placed.around within laminar member condition w hw around.1 around.2) beside

theorem regionText_around {condition : Bool} {r : Region} (hr : r ∈ b.arena.live)
    (spared : ¬ b.Dropped block condition r) (around : b.Surrounds block r) :
    (b.choose block condition).arena.regionText r =
      b.text.slice (b.start r).1 (b.start block.opener).1 ++ b.choice block condition ++
        b.text.slice (b.stop block.closer).1 (b.stop r).1 := by
  have recut := placed.recut within condition
  have member := List.mem_of_mem_filter hr
  have other := ne_opener_of_spared spared
  rw [surrounds_iff fresh within laminar solid placed live hr other] at around
  have order := placed.opener_before_closer
  have bounds := (within _ placed.opener).1
  have bounds' := (within _ placed.closer).1
  rw [choice_eq fresh within placed, start_of_mem fresh within member,
    stop_of_mem fresh within member, start_of_mem fresh within placed.opener,
    stop_of_mem fresh within placed.closer]
  exact recut.regionText_around (by omega) (Nat.le_of_lt around.1.1) (Nat.le_of_lt around.2.2)

theorem chosen_of_placed (condition : Bool) :
    Chosen b block condition (b.choose block condition) := by
  have survives {r : Region} : r ∈ (b.choose block condition).arena.live ↔ _ :=
    live_choose fresh within laminar solid placed live condition
  constructor
  · rw [start_of_mem fresh within placed.opener, stop_of_mem fresh within placed.closer,
      choice_eq fresh within placed]
    exact (placed.recut within condition).text
  · exact fun r => survives
  · intro r hr
    obtain ⟨hr, spared⟩ := survives.mp hr
    exact regionText_beside fresh within laminar solid placed live hr spared
  · intro r hr
    obtain ⟨hr, spared⟩ := survives.mp hr
    exact regionText_around fresh within laminar solid placed live hr spared

end Choose

/-- Whatever was replaced and resolved before, the choice of a branch cuts the markers and the other
branch out of the text, drops the regions that were in them, and reaches no other region but those
around the block. -/
theorem rewritten_chosen {t : Text} {b₀ b : Buffer} {blocks : List Block} {log : List (Nat × Nat)}
    (read : ofText t = .ok b₀) (paired : Block.matchAll b₀.arena = .ok blocks)
    (rewritten : Rewritten b₀ blocks b log) {block : Block} (known : block ∈ blocks)
    (live : ∀ m ∈ block.members, m.1 ∈ b.arena.live) (condition : Bool) :
    Chosen b block condition (b.choose block condition) := by
  obtain ⟨balanced, rfl⟩ := ofText_eq_ok.mp read
  obtain ⟨fresh, logged⟩ := rewritten.logged balanced paired
  have laminar := laminar_fresh balanced
  have placed := Block.placed_of_matchAll laminar paired known
  exact chosen_of_placed fresh (logged.within (within_fresh balanced)) (logged.laminar laminar)
    (logged.solid balanced)
    ⟨fun m hm => List.mem_of_mem_filter (live m hm), placed.siblings, placed.order⟩ live condition

/-- A span in the condition is replaced, then the first branch is chosen. -/
theorem rewritten_chosen_condition :
    let t := "\x7bx\x7bif;\x7ba\x7d\x7d\x7bb\x7d\x7belse\x7dc\x7bfi\x7d\x7d".toList
    let b₀ := ofArena (Arena.fresh t)
    let inner : Region := ⟨2, 2, 2, some 1, 2, false⟩
    let block : Block := ⟨⟨1, 1, 3, some 0, 1, false⟩, some ⟨4, 5, 5, some 0, 1, false⟩,
      ⟨5, 7, 7, some 0, 1, false⟩⟩
    let b := (b₀.replace inner "yes".toList).2
    ofText t = .ok b₀ ∧ Block.matchAll b₀.arena = .ok [block] ∧ Rewritten b₀ [block] b [(2, 2)] ∧
      (∀ m ∈ block.members, m.1 ∈ b.arena.live) ∧ Chosen b block true (b.choose block true) := by
  have paired : Block.matchAll (Arena.fresh
      "\x7bx\x7bif;\x7ba\x7d\x7d\x7bb\x7d\x7belse\x7dc\x7bfi\x7d\x7d".toList) = .ok [
        ⟨⟨1, 1, 3, some 0, 1, false⟩, some ⟨4, 5, 5, some 0, 1, false⟩,
          ⟨5, 7, 7, some 0, 1, false⟩⟩] := by
    cbv
  intro t b₀ inner block b
  have read : ofText t = .ok b₀ := ofText_eq_ok.mpr ⟨(balanced_iff t).mpr rfl, rfl⟩
  have rewritten : Rewritten b₀ [block] b [(2, 2)] := .replaced _ .start (by decide)
  have live : ∀ m ∈ block.members, m.1 ∈ b.arena.live := by decide
  exact ⟨read, paired, rewritten, live,
    rewritten_chosen read paired rewritten List.mem_cons_self live true⟩

/-- A region that lies around a block does not keep its text when the block is resolved. -/
theorem around_block_changes :
    let t := "\x7bx\x7bif\x7d\x7bfi\x7d\x7d".toList
    let b := ofArena (Arena.fresh t)
    let outer : Region := ⟨0, 0, 3, none, 0, false⟩
    let block : Block := ⟨⟨1, 1, 1, some 0, 1, false⟩, none, ⟨2, 2, 2, some 0, 1, false⟩⟩
    ofText t = .ok b ∧ Block.matchAll b.arena = .ok [block] ∧
      (∀ m ∈ block.members, m.1 ∈ b.arena.live) ∧ outer ∈ b.arena.live ∧
      ¬ b.Dropped block true outer ∧ outer ∈ (b.choose block true).arena.live ∧
      (b.choose block true).arena.regionText outer ≠ b.arena.regionText outer := by
  have paired : Block.matchAll (Arena.fresh "\x7bx\x7bif\x7d\x7bfi\x7d\x7d".toList) = .ok [
      ⟨⟨1, 1, 1, some 0, 1, false⟩, none, ⟨2, 2, 2, some 0, 1, false⟩⟩] := by
    cbv
  intro t b outer block
  have read : ofText t = .ok b := ofText_eq_ok.mpr ⟨(balanced_iff t).mpr rfl, rfl⟩
  refine ⟨read, paired, by decide, by decide, ?_, by decide, by decide⟩
  rintro (⟨m, hm, low, high⟩ | ⟨x, hx, low, high⟩)
  · revert low high
    revert m
    decide
  · cases hx

end Buffer
end ChatCommands
