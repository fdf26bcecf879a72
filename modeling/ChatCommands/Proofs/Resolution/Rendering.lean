import ChatCommands.Proofs.Resolution.Verbatim
import ChatCommands.Proofs.Template.Rewriting

/-!
What a template renders to before anything is written into it.

A slot is unescaped on its own, but which character a backslash escapes is settled by the whole text
in front of it. No cut leaves a backslash over, so the slots together are unescaped like the text.
-/

namespace ChatCommands

/-- Parts that leave no backslash over, but for the last, are unescaped like the text they make. -/
theorem unescape_flatten {characters : Text} {parts : List Text}
    (whole : ∀ u ∈ parts.dropLast, u.dangling = false) :
    parts.flatMap (unescape characters) = unescape characters parts.flatten := by
  induction parts with
  | nil => rfl
  | cons u parts ih =>
    cases parts with
    | nil => simp
    | cons v parts =>
      rw [List.dropLast_cons_cons, List.forall_mem_cons] at whole
      rw [List.flatMap_cons, ih whole.2, List.flatten_cons (l := u), unescape_append whole.1]

namespace Text

variable {t : Text}

theorem dangling_slice {a b : Nat} (order : a ≤ b) (before : dangling (t.take a) = false)
    (behind : dangling (t.take b) = false) : (t.slice a b).dangling = false := by
  have split : t.take a ++ t.slice a b = t.take b := by
    simpa [slice] using slice_append_slice t (Nat.zero_le a) order
  rw [← dangling_append before, split, behind]

/-- The text with a backslash in front of each of `characters`. -/
def escapeEach (characters t : Text) : Text :=
  t.flatMap fun c => if c ∈ characters then ['\\', c] else [c]

theorem escapeEach_special {characters : Text} {c : Char} (special : c ∈ characters) (t : Text) :
    escapeEach characters (c :: t) = '\\' :: c :: escapeEach characters t := by
  simp [escapeEach, special]

theorem escapeEach_plain {characters : Text} {c : Char} (plain : c ∉ characters) (t : Text) :
    escapeEach characters (c :: t) = c :: escapeEach characters t := by
  simp [escapeEach, plain]

end Text

theorem unescape_escapeEach {characters t : Text} (unescaped : '\\' ∉ t) :
    unescape characters (Text.escapeEach characters t) = t := by
  induction t with
  | nil => rfl
  | cons c t ih =>
    rw [List.mem_cons, not_or] at unescaped
    by_cases special : c ∈ characters
    · rw [Text.escapeEach_special special, unescape_escaped, if_pos special, ih unescaped.2]
    · rw [Text.escapeEach_plain special, unescape_single (Ne.symm unescaped.1), ih unescaped.2]

/-- Where every brace is escaped there is none for a scan to find. -/
theorem Brace.ofTextAt_escapeEach {t : Text} (unescaped : '\\' ∉ t) (k : Nat) :
    ofTextAt k (Text.escapeEach bracePair t) = [] := by
  induction t generalizing k with
  | nil => rfl
  | cons c t ih =>
    rw [List.mem_cons, not_or] at unescaped
    by_cases special : c ∈ bracePair
    · rw [Text.escapeEach_special special, ofTextAt_escaped, ih unescaped.2]
    · rw [Text.escapeEach_plain special]
      simp only [bracePair, List.mem_cons, List.not_mem_nil, or_false, not_or] at special
      rw [ofTextAt_plain k (Ne.symm unescaped.1) special.1 special.2, ih unescaped.2]

namespace Arena

theorem slotsBetween_dropLast (t : Text) (edges : List Nat) (last : Nat) :
    (slotsBetween t (edges ++ [last])).dropLast = slotsBetween t edges := by
  rcases List.eq_nil_or_concat edges with rfl | ⟨before, p, rfl⟩
  · rfl
  · rw [List.concat_eq_append, List.append_assoc]
    exact (congrArg List.dropLast (slotsBetween_split t before [last] p)).trans
      List.dropLast_concat

/-- Between positions that leave no backslash over, no slot leaves one over. -/
theorem whole_slotsBetween {t : Text} {edges : List Nat} (sorted : edges.Pairwise (· < ·))
    (whole : ∀ p ∈ edges, Text.dangling (t.take p) = false) :
    ∀ s ∈ slotsBetween t edges, s.text.dangling = false := by
  induction edges with
  | nil => exact fun _ member => nomatch member
  | cons a edges ih =>
    cases edges with
    | nil => exact fun _ member => nomatch member
    | cons b edges =>
      have order := (List.pairwise_cons.mp sorted).1 b List.mem_cons_self
      rw [List.forall_mem_cons] at whole
      have front := Text.dangling_slice (Nat.le_of_lt order) whole.1 (whole.2 b List.mem_cons_self)
      exact List.forall_mem_cons.mpr ⟨front, ih sorted.of_cons whole.2⟩

end Arena

section Untouched

variable {t : Text} (balanced : Balanced t)
include balanced

/-- Neither edge of a span stands behind a backslash that is left over. -/
theorem Balanced.whole_edges {s : Span} (member : s ∈ Span.spans t) :
    Text.dangling (t.take s.start) = false ∧ Text.dangling (t.take s.stop) = false := by
  obtain ⟨before, after, split⟩ := List.append_of_mem member
  obtain ⟨front, inner, rest, cut⟩ := balanced.exists_cut split
  constructor
  · rw [cut.text, cut.start, List.take_left, cut.whole]
  · have stop : s.stop = (front ++ Text.braced inner).length := by
      rw [cut.stop, List.length_append, Text.length_braced]
    rw [cut.text, ← List.append_assoc, stop, List.take_left, Text.dangling_append cut.whole,
      cut.closed.span.whole]

namespace Arena

theorem whole_innerCuts {p : Nat} (cut : p ∈ innerCuts t) : Text.dangling (t.take p) = false := by
  have inside := innerCuts_lt cut
  have edge := (List.mem_filter.mp cut).2
  simp only [isCut, Bool.or_eq_true, beq_iff_eq, List.any_eq_true] at edge
  rcases edge with (rfl | rfl) | ⟨s, member, rfl | rfl⟩
  · rfl
  · exact absurd inside (Nat.lt_irrefl _)
  · exact (balanced.whole_edges member).1
  · exact (balanced.whole_edges member).2

/-- Only the last slot can end in a backslash that escapes nothing. -/
theorem whole_slots {s : Slot} (member : s ∈ (fresh t).slots.dropLast) :
    s.text.dangling = false := by
  rw [fresh_slots, cuts_eq, slotsBetween_dropLast] at member
  have sorted := cuts_sorted t
  rw [cuts_eq] at sorted
  exact whole_slotsBetween (List.pairwise_append.mp sorted).1
    (fun p cut => whole_innerCuts balanced cut) s member

/-- The slots of a template, unescaped one by one, are the unescaped template. -/
theorem render_fresh : (fresh t).render = unescape bracePair t := by
  have texts : (fresh t).render = ((fresh t).slots.map Slot.text).flatMap (unescape bracePair) := by
    rw [render, List.flatMap_map]
    apply List.flatMap_congr
    intro s member
    obtain ⟨k, inside, rfl⟩ := List.mem_iff_getElem.mp member
    simp [unwritten_fresh (List.getElem?_eq_getElem inside)]
  have whole : ∀ u ∈ ((fresh t).slots.map Slot.text).dropLast, u.dangling = false := by
    rw [← List.map_dropLast]
    exact List.forall_mem_map.mpr fun s => whole_slots balanced
  have all : ((fresh t).slots.map Slot.text).flatten = t := text_fresh t
  rw [texts, unescape_flatten whole, all]

end Arena

end Untouched

/-- A template in which nothing was replaced renders to its text without escapes. And a text without
backslashes, its braces escaped, is a template without instructions that resolves to that text. -/
theorem rendering_unescapes :
    (∀ t found, Span.scan t = .ok found →
      ∃ b, Buffer.ofText t = .ok b ∧ b.arena.render = unescape bracePair t) ∧
    ∀ s, '\\' ∉ s →
      let t := Text.escapeEach bracePair s
      Span.scan t = .ok [] ∧ (∃ a, Block.ofText t = .ok (a, []) ∧ a.regions = []) ∧
      (∀ c levels d start, (Descent.text c levels t).outcome d start = ((.ok s, d), start)) ∧
      ∀ c start, resolve c t start =
        (.ok ⟨s, start.effects.stickers, start.effects.followups⟩, start) := by
  constructor
  · intro t found scanned
    obtain ⟨balanced, -⟩ := scan_eq_ok.mp scanned
    exact ⟨_, Buffer.ofText_eq_ok.mpr ⟨balanced, rfl⟩, Arena.render_fresh balanced⟩
  · intro s unescaped t
    have flat := Brace.ofTextAt_escapeEach unescaped 0
    have same : unescape bracePair (Text.escapeEach bracePair s) = s :=
      unescape_escapeEach unescaped
    refine ⟨?_, ⟨_, Block.ofText_flat flat, (Arena.render_flat flat).1⟩, ?_, ?_⟩
    · rw [(balanced_of_flat flat).scan_eq, Span.spans_flat flat]
    · intro c levels d start
      rw [Descent.text_flat flat, same]
      rfl
    · intro c start
      apply resolve_ok
      rw [Resolve.text_flat flat, same]
      rfl

/-- Runs of one, two and three backslashes in front of braces, and one at the end. -/
theorem rendering_unescapes_runs :
    let t := "\\\x7ba\\\\\x7bb\\\x7dc\\\\\\\x7d\x7dd\\".toList
    let s := "a\x7bb\x7d\x7d".toList
    let start : Run := .start ⟨[], [], [], [], [], none⟩
    Span.scan t = .ok [⟨5, 15, none, 0⟩] ∧
      (∃ b, Buffer.ofText t = .ok b ∧
        b.arena.render = "\x7ba\\\\\x7bb\x7dc\\\\\x7d\x7dd\\".toList) ∧
      '\\' ∉ s ∧ resolve .bare "a\\\x7bb\\\x7d\\\x7d".toList start = (.ok ⟨s, [], []⟩, start) := by
  intro t s start
  have scanned : Span.scan t = .ok [⟨5, 15, none, 0⟩] := rfl
  have unescaped : '\\' ∉ s := by decide
  obtain ⟨rendered, resolved⟩ := rendering_unescapes
  exact ⟨scanned, rendered t _ scanned, unescaped, (resolved s unescaped).2.2.2 .bare start⟩

end ChatCommands
