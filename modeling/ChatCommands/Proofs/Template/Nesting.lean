import ChatCommands.Proofs.Template.Spans

/-!
How the spans of a text lie in one another.

Two spans share nothing or one lies inside the other, and what a span is told about its
surroundings, its parent and its depth, is what the positions of the spans say.
-/

namespace ChatCommands

namespace Span

/-- Whether a span lies around another, with room on both sides. -/
def Encloses (a b : Span) : Prop :=
  a.start < b.start ∧ b.stop < a.stop

instance (a b : Span) : Decidable (a.Encloses b) :=
  inferInstanceAs (Decidable (_ ∧ _))

/-- Whether the parent of a span is the innermost of the spans around it, by its number. -/
def ParentIn (found : List Span) (b : Span) : Prop :=
  match b.parent with
  | none => ∀ a ∈ found, ¬ a.Encloses b
  | some p => ∃ a, found[p]? = some a ∧ a.Encloses b ∧
    ∀ c ∈ found, c.Encloses b → c = a ∨ c.Encloses a

/-- Whether the depth of a span is the number of the spans around it. -/
def DepthIn (found : List Span) (b : Span) : Prop :=
  b.depth = found.countP fun a => decide (a.Encloses b)

/-- Spans in the order of their starts, each inside or beside those before it, and each with its
surroundings. -/
structure Nested (found : List Span) : Prop where
  apart : found.Pairwise fun a b => a.stop ≤ b.start ∨ a.Encloses b
  parent : ∀ b ∈ found, ParentIn found b
  depth : ∀ b ∈ found, DepthIn found b

theorem encloses_under (around around' : List Nat) (i i' k : Nat) (a b : Span) :
    (a.under around i k).Encloses (b.under around' i' k) ↔ a.Encloses b := by
  simp only [Encloses, under]
  omega

section Beside

variable {first second : List Span} {b : Span}

theorem ParentIn.append_left (h : ParentIn first b) (beside : ∀ a ∈ second, ¬ a.Encloses b) :
    ParentIn (first ++ second) b := by
  unfold ParentIn at h ⊢
  cases hp : b.parent with
  | none =>
    simp only [hp] at h ⊢
    exact List.forall_mem_append.mpr ⟨h, beside⟩
  | some p =>
    simp only [hp] at h ⊢
    obtain ⟨a, place, around, inner⟩ := h
    have inside := (List.getElem?_eq_some_iff.mp place).1
    refine ⟨a, (List.getElem?_append_left inside).trans place, around, fun c hc outer => ?_⟩
    rcases List.mem_append.mp hc with hc | hc
    · exact inner c hc outer
    · exact absurd outer (beside c hc)

theorem ParentIn.append_right (k : Nat) (h : ParentIn second b)
    (beside : ∀ a ∈ first, ¬ a.Encloses (b.under [] first.length k)) :
    ParentIn (first ++ second.map (under [] first.length k)) (b.under [] first.length k) := by
  unfold ParentIn at h ⊢
  cases hp : b.parent with
  | none =>
    have parent : (b.under [] first.length k).parent = none := by simp [under, hp]
    simp only [hp, parent] at h ⊢
    refine List.forall_mem_append.mpr ⟨beside, List.forall_mem_map.mpr fun a ha => ?_⟩
    rw [encloses_under]
    exact h a ha
  | some p =>
    have parent : (b.under [] first.length k).parent = some (p + first.length) := by
      simp [under, hp]
    simp only [hp, parent] at h ⊢
    obtain ⟨a, place, around, inner⟩ := h
    refine ⟨a.under [] first.length k, ?_, (encloses_under ..).mpr around, fun c hc outer => ?_⟩
    · rw [List.getElem?_append_right (Nat.le_add_left _ _), Nat.add_sub_cancel, List.getElem?_map,
        place]
      rfl
    · rcases List.mem_append.mp hc with hc | hc
      · exact absurd outer (beside c hc)
      · obtain ⟨d, hd, rfl⟩ := List.mem_map.mp hc
        rw [encloses_under] at outer ⊢
        exact (inner d hd outer).imp_left (congrArg _)

theorem countP_beside {found : List Span} (beside : ∀ a ∈ found, ¬ a.Encloses b) :
    (found.countP fun a => decide (a.Encloses b)) = 0 := by
  rw [List.countP_eq_zero]
  intro a ha
  simpa using beside a ha

theorem countP_under (found : List Span) (around around' : List Nat) (i i' k : Nat) :
    ((found.map (under around i k)).countP fun a => decide (a.Encloses (b.under around' i' k))) =
      found.countP fun a => decide (a.Encloses b) := by
  rw [List.countP_map]
  congr 1
  funext a
  rw [Function.comp_apply, decide_eq_decide, encloses_under]

end Beside

theorem Nested.nil : Nested [] := by
  constructor <;> simp

/-- The spans of two texts, one behind the other. -/
theorem Nested.append {first second : List Span} {k : Nat} (hf : Nested first)
    (hs : Nested second) (before : ∀ a ∈ first, a.start < a.stop ∧ a.stop ≤ k)
    (positive : ∀ b ∈ second, b.start < b.stop) :
    Nested (first ++ second.map (under [] first.length k)) := by
  have left {b : Span} (hb : b ∈ first) :
      ∀ a ∈ second.map (under [] first.length k), ¬ a.Encloses b := by
    refine List.forall_mem_map.mpr fun a _ => ?_
    have bounds := before b hb
    simp only [Encloses, under]
    omega
  have right {b : Span} (hb : b ∈ second) :
      ∀ a ∈ first, ¬ a.Encloses (b.under [] first.length k) := by
    intro a ha
    have bounds := before a ha
    have room := positive b hb
    simp only [Encloses, under]
    omega
  constructor
  · rw [List.pairwise_append, List.pairwise_map]
    refine ⟨hf.apart, hs.apart.imp fun apart => ?_, fun a ha b hb => ?_⟩
    · rw [encloses_under]
      exact apart.imp_left (Nat.add_le_add_right · k)
    · obtain ⟨b, _, rfl⟩ := List.mem_map.mp hb
      have bounds := before a ha
      exact .inl (Nat.le_trans bounds.2 (Nat.le_add_left k b.start))
  · refine List.forall_mem_append.mpr ⟨fun b hb => ?_, List.forall_mem_map.mpr fun b hb => ?_⟩
    · exact (hf.parent b hb).append_left (left hb)
    · exact (hs.parent b hb).append_right k (right hb)
  · refine List.forall_mem_append.mpr ⟨fun b hb => ?_, List.forall_mem_map.mpr fun b hb => ?_⟩
    · rw [DepthIn, List.countP_append, countP_beside (left hb), hf.depth b hb, Nat.add_zero]
    · rw [DepthIn, List.countP_append, countP_beside (right hb), countP_under, ← hs.depth b hb,
        Nat.zero_add]
      rfl

/-- A span with the spans inside it. -/
theorem Nested.span {inner : List Span} {n : Nat} (h : Nested inner)
    (inside : ∀ a ∈ inner, a.stop ≤ n) :
    Nested (⟨0, n + 2, none, 0⟩ :: inner.map (under [0] 1 1)) := by
  let whole : Span := ⟨0, n + 2, none, 0⟩
  have around (b : Span) (hb : b ∈ inner) : whole.Encloses (b.under [0] 1 1) := by
    have bounds := inside b hb
    simp only [Encloses, under, whole]
    omega
  have top (a : Span) : ¬ a.Encloses whole := fun h => absurd h.1 (Nat.not_lt_zero _)
  constructor
  · rw [List.pairwise_cons, List.pairwise_map]
    refine ⟨List.forall_mem_map.mpr fun b hb => .inr (around b hb), h.apart.imp fun apart => ?_⟩
    rw [encloses_under]
    exact apart.imp_left (Nat.add_le_add_right · 1)
  · refine List.forall_mem_cons.mpr ⟨fun a _ => top a, List.forall_mem_map.mpr fun b hb => ?_⟩
    have parent := h.parent b hb
    unfold ParentIn at parent ⊢
    cases hp : b.parent with
    | none =>
      have lifted : (b.under [0] 1 1).parent = some 0 := by simp [under, hp]
      simp only [hp, lifted] at parent ⊢
      refine ⟨whole, rfl, around b hb, List.forall_mem_cons.mpr ⟨fun _ => .inl rfl, ?_⟩⟩
      refine List.forall_mem_map.mpr fun c hc outer => ?_
      exact absurd ((encloses_under ..).mp outer) (parent c hc)
    | some p =>
      have lifted : (b.under [0] 1 1).parent = some (p + 1) := by simp [under, hp]
      simp only [hp, lifted] at parent ⊢
      obtain ⟨a, place, outer, innermost⟩ := parent
      refine ⟨a.under [0] 1 1, ?_, (encloses_under ..).mpr outer, ?_⟩
      · rw [List.getElem?_cons_succ, List.getElem?_map, place]
        rfl
      · refine List.forall_mem_cons.mpr ⟨fun _ => .inr ?_, List.forall_mem_map.mpr ?_⟩
        · exact around a (List.mem_of_getElem? place)
        · intro c hc between
          rw [encloses_under] at between ⊢
          exact (innermost c hc between).imp_left (congrArg _)
  · refine List.forall_mem_cons.mpr ⟨?_, List.forall_mem_map.mpr fun b hb => ?_⟩
    · exact (countP_beside fun a _ => top a).symm
    · let counts (a : Span) : Bool := decide (a.Encloses (b.under [0] 1 1))
      have counted : counts whole = true := decide_eq_true (around b hb)
      refine Eq.trans ?_ (List.countP_cons_of_pos counted).symm
      rw [countP_under, ← h.depth b hb]
      rfl

end Span

open Span

theorem Closed.nested {t : Text} (h : Closed t) : Nested (spans t) := by
  induction h using Closed.part_induction with
  | nil => exact .nil
  | flat u t hu ht flat ih =>
    rw [spans_append hu ht.balanced, spans_flat flat]
    exact .append .nil ih (by simp) fun b hb => (ht.ordered.within b hb).1
  | span inner t hi ht ih_inner ih =>
    have within := hi.span.ordered.within
    rw [spans_span hi] at within
    rw [spans_append hi.span ht.balanced, spans_span hi]
    exact .append (.span ih_inner fun a ha => (hi.ordered.within a ha).2) ih within
      fun b hb => (ht.ordered.within b hb).1

theorem Balanced.nested {t : Text} (h : Balanced t) : Nested (spans t) := by
  obtain ⟨s, hs, rfl | rfl⟩ := h
  · exact hs.nested
  · rw [spans_append hs (balanced_of_flat rfl), spans_flat (t := ['\\']) rfl, List.map_nil,
      List.append_nil]
    exact hs.nested

/-- A text cut at the span with number `index`, which has `inner` between its braces. Those that
follow it are the spans of `inner`, in their place, and then spans behind it. -/
structure Span.Cut (t : Text) (index : Nat) (s : Span) (after : List Span)
    (front inner rest : Text) : Prop where
  text : t = front ++ (Text.braced inner ++ rest)
  whole : front.dangling = false
  closed : Closed inner
  start : s.start = front.length
  stop : s.stop = front.length + (inner.length + 2)
  after : ∃ around later, around.length = s.depth ∧ (∀ a ∈ later, s.stop ≤ a.start) ∧
    after = (spans inner).map (under (index :: around) (index + 1) (front.length + 1)) ++ later

/-- A cut of a text that is a part of another. -/
theorem Span.Cut.part {t : Text} {index : Nat} {s : Span} {after : List Span}
    {front inner rest : Text} (h : s.Cut t index after front inner rest) (pre : Text)
    (whole : pre.dangling = false) (suffix : Text) (outer : List Nat) (i : Nat) (more : List Span)
    (behind : ∀ a ∈ more, pre.length + t.length ≤ a.start) :
    (s.under outer i pre.length).Cut (pre ++ (t ++ suffix)) (index + i)
      (after.map (under outer i pre.length) ++ more) (pre ++ front) inner (rest ++ suffix) := by
  obtain ⟨around, later, depth, later_behind, rfl⟩ := h.after
  have inside : s.stop ≤ t.length := by
    rw [h.text, h.stop]
    simp only [List.length_append, Text.length_braced]
    omega
  refine ⟨?_, ?_, h.closed, ?_, ?_, around.map (· + i) ++ outer,
    later.map (under outer i pre.length) ++ more, ?_, ?_, ?_⟩
  · rw [h.text]
    simp only [List.append_assoc]
  · rw [Text.dangling_append whole, h.whole]
  · rw [under, h.start, List.length_append, Nat.add_comm]
  · simp only [under, h.stop, List.length_append]
    omega
  · simp only [under, depth, List.length_append, List.length_map]
  · refine List.forall_mem_append.mpr ⟨List.forall_mem_map.mpr fun a ha => ?_, fun a ha => ?_⟩
    · exact Nat.add_le_add_right (later_behind a ha) pre.length
    · have far := behind a ha
      simp only [under]
      omega
  · have number : index + 1 + i = index + i + 1 := Nat.add_right_comm index 1 i
    have offset : front.length + 1 + pre.length = (pre ++ front).length + 1 := by
      rw [List.length_append]
      omega
    rw [List.map_append, List.map_map, List.append_assoc]
    congr 1
    apply List.map_congr_left
    intro a _
    rw [Function.comp_apply, under_under, number, offset, List.map_cons, List.cons_append]

/-- A member of two lists, one behind the other, is in the second or in the first. -/
theorem append_eq_append_cons {α : Type} {xs ys before after : List α} {x : α}
    (h : xs ++ ys = before ++ x :: after) :
    (∃ front, before = xs ++ front ∧ ys = front ++ x :: after) ∨
      ∃ back, xs = before ++ x :: back ∧ after = back ++ ys := by
  rcases List.append_eq_append_iff.mp h with ⟨front, hb, hy⟩ | ⟨back, hx, hc⟩
  · exact .inl ⟨front, hb, hy⟩
  · rcases List.cons_eq_append_iff.mp hc with ⟨rfl, hy⟩ | ⟨back, rfl, ha⟩
    · rw [List.append_nil] at hx
      exact .inl ⟨[], by rw [hx, List.append_nil], hy⟩
    · exact .inr ⟨back, hx, ha⟩

theorem map_eq_append_cons {α β : Type} {f : α → β} {xs : List α} {before after : List β} {y : β}
    (h : xs.map f = before ++ y :: after) :
    ∃ b x a, xs = b ++ x :: a ∧ b.map f = before ∧ f x = y ∧ a.map f = after := by
  obtain ⟨b, tail, split, hb, cons⟩ := List.map_eq_append_iff.mp h
  obtain ⟨x, a, rfl, hx, ha⟩ := List.map_eq_cons_iff.mp cons
  exact ⟨b, x, a, split, hb, hx, ha⟩

theorem Closed.exists_cut {t : Text} (h : Closed t) {before after : List Span} {s : Span}
    (split : spans t = before ++ s :: after) :
    ∃ front inner rest, s.Cut t before.length after front inner rest := by
  induction h using Closed.part_induction generalizing before after s with
  | nil => simp [spans, Brace.ofText, ofBraces] at split
  | flat u t hu ht flat ih =>
    rw [spans_append hu ht.balanced, spans_flat flat, List.nil_append, List.length_nil] at split
    obtain ⟨b, a, _, found, rfl, rfl, rfl⟩ := map_eq_append_cons split
    obtain ⟨front, body, rest, cut⟩ := ih found
    have cut := cut.part u hu.whole [] [] 0 [] (by simp)
    rw [List.append_nil, List.append_nil] at cut
    exact ⟨_, _, _, (List.length_map _).symm ▸ cut⟩
  | span inner t hi ht ih_inner ih =>
    rw [spans_append hi.span ht.balanced] at split
    rcases append_eq_append_cons split with ⟨front, rfl, later⟩ | ⟨back, inside, rfl⟩
    · obtain ⟨b, a, _, found, rfl, rfl, rfl⟩ := map_eq_append_cons later
      obtain ⟨front, body, rest, cut⟩ := ih found
      have cut := cut.part _ hi.span.whole [] [] (spans (Text.braced inner)).length [] (by simp)
      rw [List.append_nil, List.append_nil] at cut
      rw [List.length_append, List.length_map, Nat.add_comm]
      exact ⟨_, _, _, cut⟩
    · have behind : ∀ a ∈ (spans t).map (under [] (spans (Text.braced inner)).length
          (Text.braced inner).length), inner.length + 2 ≤ a.start := by
        refine List.forall_mem_map.mpr fun a _ => ?_
        simp only [under, Text.length_braced]
        omega
      rw [spans_span hi] at inside
      rcases before with _ | ⟨whole, before⟩
      · obtain ⟨rfl, rfl⟩ := List.cons.inj inside
        exact ⟨[], inner, t, rfl, rfl, hi, rfl, by simp, [], _, rfl, behind, rfl⟩
      · obtain ⟨rfl, nested⟩ := List.cons.inj inside
        obtain ⟨b, a, _, found, rfl, rfl, rfl⟩ := map_eq_append_cons nested
        obtain ⟨front, body, rest, cut⟩ := ih_inner found
        have parts : ['{'] ++ (inner ++ '}' :: t) = Text.braced inner ++ t := by simp [Text.braced]
        have cut := cut.part ['{'] rfl ('}' :: t) [0] 1 _ fun a ha => by
          have := behind a ha
          simp only [List.length_cons, List.length_nil]
          omega
        rw [parts] at cut
        rw [List.length_cons, List.length_map]
        exact ⟨_, _, _, cut⟩

theorem Balanced.exists_cut {t : Text} (h : Balanced t) {before after : List Span} {s : Span}
    (split : spans t = before ++ s :: after) :
    ∃ front inner rest, s.Cut t before.length after front inner rest := by
  obtain ⟨u, hu, rfl | rfl⟩ := h
  · exact hu.exists_cut split
  · rw [spans_append hu (balanced_of_flat rfl), spans_flat (t := ['\\']) rfl, List.map_nil,
      List.append_nil] at split
    obtain ⟨front, inner, rest, cut⟩ := hu.exists_cut split
    have same : after.map (under [] 0 0) = after :=
      (List.map_congr_left fun a _ => under_nil a).trans (List.map_id' after)
    have cut := cut.part [] rfl ['\\'] [] 0 [] (by simp)
    rw [List.nil_append, List.length_nil, under_nil, same, List.append_nil] at cut
    exact ⟨_, _, _, cut⟩

end ChatCommands
