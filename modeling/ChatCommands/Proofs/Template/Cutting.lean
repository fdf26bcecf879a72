import ChatCommands.Proofs.Template.Height
import ChatCommands.Proofs.Template.Layout
import ChatCommands.Proofs.Template.Nesting
import ChatCommands.Proofs.Template.Parts

/-!
The parts of an instruction in the text it was read from.

A cut never falls between two braces that belong together. So each part can be scanned on its own,
and the spans of the parts are the spans inside the instruction.
-/

namespace ChatCommands

open Span

namespace Text

theorem slice_middle (front t rest : Text) :
    (front ++ (t ++ rest)).slice front.length (front.length + t.length) = t := by
  have start := slice_append_right front (t ++ rest) 0 t.length
  rwa [slice_append_left (Nat.le_refl _), Nat.add_zero, slice, slice, List.drop_zero,
    List.take_length] at start

/-- Whether every semicolon of a text is escaped or between braces. -/
def Seamless (t : Text) : Prop :=
  ∀ k, t.bareAt ';' k = true → t.height k ≠ 0

namespace Seamless

theorem nil : Seamless [] := by
  intro k semicolon
  simp [bareAt] at semicolon

theorem of_absent {t : Text} (absent : ';' ∉ t) : Seamless t := by
  intro k semicolon
  rw [bareAt, Bool.and_eq_true, decide_eq_true_eq] at semicolon
  exact absurd (List.mem_of_getElem? semicolon.1) absent

theorem append {s t : Text} (whole : s.dangling = false) (level : s.Level) (hs : s.Seamless)
    (ht : t.Seamless) : (s ++ t).Seamless := by
  intro k semicolon
  by_cases first : k < s.length
  · rw [bareAt_append_left t first] at semicolon
    rw [height_append_left t (Nat.le_of_lt first)]
    exact hs k semicolon
  · obtain ⟨k, rfl⟩ := Nat.exists_eq_add_of_le (Nat.le_of_not_lt first)
    rw [bareAt_append_right t whole] at semicolon
    rw [height_append_right t whole, level.final, Int.zero_add]
    exact ht k semicolon

theorem single {c : Char} (hc : c ≠ ';') : Seamless [c] := by
  intro k semicolon
  rw [bareAt_single hc] at semicolon
  cases semicolon

theorem escape (d : Char) : Seamless ['\\', d] := by
  intro k semicolon
  rw [bareAt_escape (by decide)] at semicolon
  cases semicolon

end Seamless

end Text

theorem Closed.seamless_span {inner : Text} (h : Closed inner) : (Text.braced inner).Seamless := by
  rintro (_ | k) semicolon
  · simp [Text.braced, Text.bareAt] at semicolon
  · have inside := Text.bareAt_lt semicolon
    rw [Text.length_braced] at inside
    rw [Text.braced, Text.height_cons_open]
    by_cases first : k ≤ inner.length
    · have low := h.level.low k first
      rw [Text.height_append_left _ first]
      omega
    · omega

/-- No part of a closed text can be cut again. -/
theorem Closed.seamless_cutParts {t : Text} (h : Closed t) :
    (ChatCommands.cutParts 0 t).1.Seamless ∧
      ∀ p ∈ (ChatCommands.cutParts 0 t).2, p.Seamless := by
  induction h with
  | nil => exact ⟨.nil, by simp [ChatCommands.cutParts]⟩
  | @plain c t hc ho hx _ ih =>
    by_cases cut : c = ';'
    · subst cut
      rw [cutParts_semicolon]
      exact ⟨.nil, List.forall_mem_cons.mpr ih⟩
    · have same : depthAfter 0 c = 0 := by simp [depthAfter, ho, hx]
      rw [cutParts_single 0 hc (by simp [cut]), same]
      exact ⟨.append (s := [c]) ((Text.dangling_single hc []).trans Text.dangling_nil)
        (.single ho hx) (.single cut) ih.1, ih.2⟩
  | @escaped d t _ ih =>
    rw [cutParts_escaped]
    exact ⟨.append (s := ['\\', d]) (Text.dangling_escaped d []) (.escape d) (.escape d) ih.1, ih.2⟩
  | @braced inner t hi ht _ ih =>
    have assoc : '{' :: (inner ++ '}' :: t) = Text.braced inner ++ t := by simp [Text.braced]
    rw [assoc, hi.cutParts_span]
    exact ⟨.append hi.span.whole hi.span.level hi.seamless_span ih.1, ih.2⟩

/-- What cannot be cut is a single part. -/
theorem Closed.cutParts_seamless {t : Text} (h : Closed t) (seamless : t.Seamless) :
    ChatCommands.cutParts 0 t = (t, []) := by
  have closed := h.cutParts.1
  have whole := join_cutParts 0 t
  rcases cut : ChatCommands.cutParts 0 t with ⟨first, _ | ⟨p, rest⟩⟩
  · rw [cut] at whole
    simpa [Text.join, List.intercalate] using whole
  · rw [cut] at closed whole
    dsimp only at closed whole
    rw [join_cons] at whole
    -- Behind the first part stands a semicolon, and the first part closes all that it opens.
    have semicolon := Text.bareAt_append_right (';' :: Text.join [';'] (p :: rest)) closed.whole ';' 0
    have level := Text.height_append_right (';' :: Text.join [';'] (p :: rest)) closed.whole 0
    rw [whole] at semicolon level
    rw [closed.level.final] at level
    exact absurd level (seamless _ semicolon)

/-- Parts that stand one behind the other with one character between, from position `start` on,
each with the position where it begins. -/
def placed (start : Nat) : List Text → List (Nat × Text)
  | [] => []
  | p :: rest => (start, p) :: placed (start + p.length + 1) rest

theorem le_of_mem_placed {start : Nat} {ps : List Text} {x : Nat × Text}
    (h : x ∈ placed start ps) : start ≤ x.1 ∧ x.2 ∈ ps := by
  induction ps generalizing start with
  | nil => cases h
  | cons p ps ih =>
    rcases List.mem_cons.mp h with rfl | later
    · exact ⟨Nat.le_refl _, List.mem_cons_self⟩
    · have bounds := ih later
      exact ⟨by omega, List.mem_cons_of_mem p bounds.2⟩

theorem placed_apart (start : Nat) (ps : List Text) :
    (placed start ps).Pairwise fun x y => x.1 + x.2.length < y.1 := by
  induction ps generalizing start with
  | nil => exact .nil
  | cons p ps ih => exact .cons (fun x hx => (le_of_mem_placed hx).1) (ih _)

theorem slice_placed {ps : List Text} {x : Nat × Text} (front rest : Text)
    (h : x ∈ placed front.length ps) :
    (front ++ (Text.join [';'] ps ++ rest)).slice x.1 (x.1 + x.2.length) = x.2 := by
  induction ps generalizing front with
  | nil => cases h
  | cons p ps ih =>
    rcases List.mem_cons.mp h with rfl | later
    · cases ps with
      | nil =>
        have alone : Text.join [';'] [p] = p := by simp [Text.join, List.intercalate]
        rw [alone]
        exact Text.slice_middle front p rest
      | cons q ps =>
        rw [join_cons, List.append_assoc]
        exact Text.slice_middle front p _
    · cases ps with
      | nil => cases later
      | cons q ps =>
        have shift : (front ++ (p ++ [';'])).length = front.length + p.length + 1 := by
          simp [Nat.add_assoc]
        rw [← shift] at later
        have next := ih (front ++ (p ++ [';'])) later
        rw [join_cons]
        simpa using next

namespace Span

/-- Where a span begins and ends in a text that has the span's own text from `offset` on. -/
def edgesAt (offset : Nat) (s : Span) : Nat × Nat :=
  (s.start + offset, s.stop + offset)

theorem edgesAt_under (around : List Nat) (index k offset : Nat) (s : Span) :
    edgesAt offset (s.under around index k) = edgesAt (k + offset) s := by
  simp only [edgesAt, under, Nat.add_assoc]

/-- Where the spans of placed parts begin and end. -/
def edgesOf (parts : List (Nat × Text)) : List (Nat × Nat) :=
  parts.flatMap fun x => (spans x.2).map (edgesAt x.1)

theorem edgesOf_placed {ps : List Text} (closed : ∀ p ∈ ps, Closed p) (start : Nat) :
    edgesOf (placed start ps) = (spans (Text.join [';'] ps)).map (edgesAt start) := by
  induction ps generalizing start with
  | nil => rfl
  | cons p ps ih =>
    obtain ⟨hp, hps⟩ := List.forall_mem_cons.mp closed
    cases ps with
    | nil =>
      have alone : Text.join [';'] [p] = p := by simp [Text.join, List.intercalate]
      rw [alone]
      exact List.append_nil _
    | cons q ps =>
      have mark : Closed [';'] := .plain (by decide) (by decide) (by decide) .nil
      have rest := (closed_join hps).balanced
      have later := spans_append mark rest
      rw [spans_flat (t := [';']) rfl, List.nil_append] at later
      have next := ih hps (start + p.length + 1)
      have parts : p ++ ';' :: Text.join [';'] (q :: ps) =
          p ++ ([';'] ++ Text.join [';'] (q :: ps)) := rfl
      rw [join_cons, parts, spans_append hp (mark.append_balanced rest), List.map_append]
      refine congrArg _ (next.trans ?_)
      rw [List.map_map]
      refine Eq.trans ?_ (congrArg _ later.symm)
      rw [List.map_map]
      apply List.map_congr_left
      intro a _
      rw [Function.comp_apply, Function.comp_apply, edgesAt_under, edgesAt_under]
      congr 1
      simp only [List.length_singleton]
      omega

end Span

namespace Instruction

/-- The parts of an instruction that was read from a span of a text, the first being the keyword
before it was trimmed. -/
structure Cuts (t : Text) (found : List Span) (s : Span) (i : Instruction) (first : Text) :
    Prop where
  split : splitArguments i.body = first :: i.args
  keyword : i.keyword = Text.strip first
  join : Text.join [';'] (first :: i.args) = t.slice (s.start + 1) (s.stop - 1)
  seamless : ∀ p ∈ first :: i.args, p.Seamless
  scanned : ∀ p ∈ first :: i.args, scan p = .ok (spans p)
  rests : ∀ k, scan (i.rest k) = .ok (spans (i.rest k))
  stands : ∀ x ∈ placed (s.start + 1) (first :: i.args), t.slice x.1 (x.1 + x.2.length) = x.2
  inside : edgesOf (placed (s.start + 1) (first :: i.args)) =
    (found.filter fun b => decide (s.Encloses b)).map (edgesAt 0)
  once : ∀ b ∈ found, s.Encloses b → ∃ j : Nat, ∀ l : Nat, l = j ↔
    ∃ x : Nat × Text, (placed (s.start + 1) (first :: i.args))[l]? = some x ∧
      edgesAt 0 b ∈ (spans x.2).map (edgesAt x.1)
  enclosing : ∀ (j l : Nat) (x y : Nat × Text),
    (placed (s.start + 1) (first :: i.args))[j]? = some x →
    (placed (s.start + 1) (first :: i.args))[l]? = some y → ∀ a ∈ spans x.2, ∀ b ∈ spans y.2,
      ((a.under [] 0 x.1).Encloses (b.under [] 0 y.1) ↔ j = l ∧ a.Encloses b)

/-- Two ranges of a text that meet lie in the same part. -/
theorem place_unique {start : Nat} {ps : List Text} {j l : Nat} {x y : Nat × Text}
    (hx : (placed start ps)[j]? = some x) (hy : (placed start ps)[l]? = some y) {a b : Span}
    (ha : a.start < a.stop ∧ a.stop ≤ x.2.length) (hb : b.start < b.stop ∧ b.stop ≤ y.2.length)
    (meet : a.start + x.1 < b.stop + y.1 ∧ b.start + y.1 < a.stop + x.1) : j = l := by
  have apart {j l : Nat} {x y : Nat × Text} (hx : (placed start ps)[j]? = some x)
      (hy : (placed start ps)[l]? = some y) (before : j < l) : x.1 + x.2.length < y.1 := by
    obtain ⟨hj, rfl⟩ := List.getElem?_eq_some_iff.mp hx
    obtain ⟨hl, rfl⟩ := List.getElem?_eq_some_iff.mp hy
    exact List.pairwise_iff_getElem.mp (placed_apart start ps) j l hj hl before
  rcases Nat.lt_trichotomy j l with before | same | behind
  · have gap := apart hx hy before
    omega
  · exact same
  · have gap := apart hy hx behind
    omega

section Parts

variable {start : Nat} {ps : List Text} (closed : ∀ p ∈ ps, Closed p)
include closed

theorem bounds_placed {j : Nat} {x : Nat × Text} (hx : (placed start ps)[j]? = some x) {a : Span}
    (ha : a ∈ spans x.2) : a.start < a.stop ∧ a.stop ≤ x.2.length :=
  (closed _ (le_of_mem_placed (List.mem_of_getElem? hx)).2).ordered.within a ha

theorem once_placed {edge : Nat × Nat} (h : edge ∈ edgesOf (placed start ps)) :
    ∃ j : Nat, ∀ l : Nat, l = j ↔ ∃ x : Nat × Text, (placed start ps)[l]? = some x ∧
      edge ∈ (spans x.2).map (edgesAt x.1) := by
  obtain ⟨x, hx, here⟩ := List.mem_flatMap.mp h
  obtain ⟨j, hj⟩ := List.mem_iff_getElem?.mp hx
  refine ⟨j, fun l => ⟨?_, ?_⟩⟩
  · rintro rfl
    exact ⟨x, hj, here⟩
  · rintro ⟨y, hl, there⟩
    obtain ⟨a, ha, rfl⟩ := List.mem_map.mp here
    obtain ⟨c, hc, equal⟩ := List.mem_map.mp there
    have room := bounds_placed closed hj ha
    simp only [edgesAt, Prod.mk.injEq] at equal
    exact place_unique hl hj (bounds_placed closed hl hc) room (by omega)

theorem encloses_placed {j l : Nat} {x y : Nat × Text} (hj : (placed start ps)[j]? = some x)
    (hl : (placed start ps)[l]? = some y) {a b : Span} (ha : a ∈ spans x.2) (hb : b ∈ spans y.2) :
    (a.under [] 0 x.1).Encloses (b.under [] 0 y.1) ↔ j = l ∧ a.Encloses b := by
  have room := bounds_placed closed hj ha
  have room' := bounds_placed closed hl hb
  constructor
  · intro encloses
    have same : j = l := place_unique hj hl room room' (by
      simp only [Encloses, under] at encloses
      omega)
    subst same
    rw [hj] at hl
    cases hl
    exact ⟨rfl, (encloses_under ..).mp encloses⟩
  · rintro ⟨rfl, encloses⟩
    rw [hj] at hl
    cases hl
    exact (encloses_under ..).mpr encloses

end Parts

end Instruction

open Instruction

/-- The spans inside a span are those of the text between its braces, in their place. -/
theorem Span.Cut.inside {t : Text} {before after : List Span} {s : Span} {front inner rest : Text}
    (h : s.Cut t before.length after front inner rest) (balanced : Balanced t)
    (split : spans t = before ++ s :: after) :
    ((spans t).filter fun b => decide (s.Encloses b)).map (edgesAt 0) =
      (spans inner).map (edgesAt (s.start + 1)) := by
  obtain ⟨around, later, _, behind, rfl⟩ := h.after
  have within := balanced.ordered.within
  have nested := balanced.nested.apart
  rw [split] at within nested
  have outside {xs : List Span} (apart : ∀ a ∈ xs, ¬ s.Encloses a) :
      xs.filter (fun b => decide (s.Encloses b)) = [] := by
    rw [List.filter_eq_nil_iff]
    intro a ha
    simpa using apart a ha
  have first : ∀ a ∈ before ++ [s], ¬ s.Encloses a := by
    refine List.forall_mem_append.mpr ⟨fun a ha => ?_, fun a ha => ?_⟩
    · have order := (List.pairwise_append.mp nested).2.2 a ha s List.mem_cons_self
      have room := within s (by simp)
      have room' := within a (by simp [ha])
      simp only [Encloses] at order ⊢
      omega
    · rw [List.mem_singleton.mp ha]
      exact fun h => Nat.lt_irrefl _ h.1
  have last : ∀ a ∈ later, ¬ s.Encloses a := by
    intro a ha
    have far := behind a ha
    have room := within a (by simp [ha])
    simp only [Encloses]
    omega
  have middle : ∀ a ∈ (spans inner).map (under (before.length :: around) (before.length + 1)
      (front.length + 1)), decide (s.Encloses a) = true := by
    refine List.forall_mem_map.mpr fun a ha => decide_eq_true ?_
    have room := h.closed.ordered.within a ha
    simp only [Encloses, under, h.start, h.stop]
    omega
  have parts (xs : List Span) : before ++ s :: xs = before ++ [s] ++ xs := by simp
  rw [split, parts, List.filter_append, outside first, List.filter_append, outside last,
    List.filter_eq_self.mpr middle, List.nil_append, List.append_nil, List.map_map, h.start]
  apply List.map_congr_left
  intro a _
  rw [Function.comp_apply, edgesAt_under, Nat.add_zero]

/-- An instruction that is read from a span is cut into parts that are scanned on their own and
hold the spans inside the span, each part its own. -/
theorem decode_cuts {t : Text} {found : List Span} {s : Span} (scanned : scan t = .ok found)
    (member : s ∈ found) : ∃ first, Cuts t found s (decode (s.text t)) first := by
  obtain ⟨balanced, rfl⟩ := scan_eq_ok.mp scanned
  obtain ⟨before, after, split⟩ := List.append_of_mem member
  obtain ⟨front, inner, rest, cut⟩ := balanced.exists_cut split
  have body : s.text t = Text.braced inner := by
    rw [Span.text, cut.start, cut.stop, cut.text, ← Text.length_braced inner]
    exact Text.slice_middle front _ rest
  have text : t = (front ++ ['{']) ++ (inner ++ '}' :: rest) := by simp [cut.text, Text.braced]
  have start : s.start + 1 = (front ++ ['{']).length := by simp [cut.start]
  have stop : s.stop - 1 = (front ++ ['{']).length + inner.length := by
    rw [← start, cut.start, cut.stop]
    omega
  -- Every part is closed, so the scan of each is that of the body at the place of the part.
  have closed : ∀ p ∈ (cutParts 0 inner).1 :: (cutParts 0 inner).2, Closed p :=
    List.forall_mem_cons.mpr cut.closed.cutParts
  have joined := join_cutParts 0 inner
  have inside : edgesOf (placed (s.start + 1) ((cutParts 0 inner).1 :: (cutParts 0 inner).2)) =
      ((spans t).filter fun b => decide (s.Encloses b)).map (edgesAt 0) := by
    rw [edgesOf_placed closed, joined, cut.inside balanced split]
  rw [body, decode_braced]
  refine ⟨(cutParts 0 inner).1, ?_, rfl, ?_, ?_, ?_, ?_, ?_, inside, ?_, ?_⟩
  · rw [Instruction.body, inner_braced]
    rfl
  · rw [joined, stop, start, text, Text.slice_middle]
  · exact List.forall_mem_cons.mpr cut.closed.seamless_cutParts
  · exact fun p hp => (closed p hp).balanced.scan_eq
  · intro k
    have args : ∀ p ∈ (cutParts 0 inner).2.drop k, Closed p := fun p hp =>
      closed p (List.mem_cons_of_mem _ (List.mem_of_mem_drop hp))
    exact (closed_join args).balanced.scan_eq
  · intro x hx
    rw [start] at hx
    have stands := slice_placed (front ++ ['{']) ('}' :: rest) hx
    rwa [joined, ← text] at stands
  · intro b hb encloses
    have edge : edgesAt 0 b ∈
        ((spans t).filter fun b => decide (s.Encloses b)).map (edgesAt 0) :=
      List.mem_map_of_mem (List.mem_filter.mpr ⟨hb, decide_eq_true encloses⟩)
    rw [← inside] at edge
    exact once_placed closed edge
  · exact fun j l x y hj hl a ha b hb => encloses_placed closed hj hl ha hb

/-- The inner span has a semicolon of its own, and the one behind it is escaped. -/
theorem decode_cuts_nested :
    let t := "\x7ba;\x7bb;c\x7d\\;d\x7d".toList
    let found : List Span := [⟨0, 12, none, 0⟩, ⟨3, 8, some 0, 1⟩]
    scan t = .ok found ∧ ⟨0, 12, none, 0⟩ ∈ found ∧
      ∃ first, Cuts t found ⟨0, 12, none, 0⟩ (decode (Span.text ⟨0, 12, none, 0⟩ t)) first := by
  intro t found
  have scanned : scan t = .ok found := rfl
  have member : ⟨0, 12, none, 0⟩ ∈ found := List.mem_cons_self
  exact ⟨scanned, member, decode_cuts scanned member⟩

end ChatCommands
