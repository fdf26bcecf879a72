import ChatCommands.Proofs.Resolution.Literal
import ChatCommands.Proofs.Resolution.Validation

/-!
The resolution of a template part by part.

A part is a text without spans, or a single span; and one part behind another is resolved after it.
-/

namespace ChatCommands

open Piece

/-- A closed text opens no pair of braces where it has no opening brace at all. -/
theorem Closed.flat {t : Text} (h : Closed t) (unopened : '{' ∉ t) : Brace.ofText t = [] := by
  unfold Brace.ofText
  induction h with
  | nil => rfl
  | plain hc ho hx _ ih =>
    rw [Brace.ofTextAt_plain 0 hc ho hx]
    apply Brace.ofTextAt_eq_nil 1 (j := 0)
    exact ih fun member => unopened (List.mem_cons_of_mem _ member)
  | escaped _ ih =>
    rw [Brace.ofTextAt_escaped]
    apply Brace.ofTextAt_eq_nil 2 (j := 0)
    exact ih fun member => unopened (List.mem_cons_of_mem _ (List.mem_cons_of_mem _ member))
  | braced => exact absurd List.mem_cons_self unopened

/-- Where no backslash escapes an opening brace, it opens a span. -/
theorem Closed.texts_ne_nil {t : Text} (h : Closed t) (unescaped : '\\' ∉ t) (opens : '{' ∈ t) :
    Span.texts t ≠ [] := by
  induction h with
  | nil => cases opens
  | @plain c t hc ho hx ht ih =>
    have single : Brace.ofText [c] = [] := Brace.ofTextAt_plain 0 hc ho hx []
    have rest : '{' ∈ t := (List.mem_cons.mp opens).resolve_left (Ne.symm ho)
    have split : Span.texts (c :: t) = Span.texts [c] ++ Span.texts t :=
      Span.texts_append (.plain hc ho hx .nil) ht.balanced
    rw [split, Span.texts_flat single]
    exact ih (fun member => unescaped (List.mem_cons_of_mem _ member)) rest
  | escaped => exact absurd List.mem_cons_self unescaped
  | @braced inner t hi ht _ _ =>
    have assoc : '{' :: (inner ++ '}' :: t) = Text.braced inner ++ t := by simp [Text.braced]
    rw [assoc, Span.texts_append hi.span ht.balanced, Span.texts_braced hi]
    exact List.cons_ne_nil _ _

/-- Whether a text is one span, with no marker out of place in it. -/
structure Single (t : Text) : Prop where
  accepted : Accepted t
  scanned : ∃ inside, Span.scan t = .ok (⟨0, t.length, none, 0⟩ :: inside)

theorem Single.braced {t : Text} (h : Single t) :
    ∃ inner, t = Text.braced inner ∧ Closed inner ∧ Accepted inner := by
  obtain ⟨inside, scanned⟩ := h.scanned
  have whole : Span.text ⟨0, t.length, none, 0⟩ t = t := by simp [Span.text, Text.slice]
  apply h.accepted.inside
  rw [Span.texts, ← (scan_eq_ok.mp scanned).2, List.map_cons, whole]
  exact List.mem_cons_self

theorem Single.inside {inner : Text} (h : Single (Text.braced inner)) :
    Closed inner ∧ Accepted inner := by
  obtain ⟨body, same, closed, accepted⟩ := h.braced
  have bodies := congrArg Instruction.inner same
  rw [Instruction.inner_braced, Instruction.inner_braced] at bodies
  exact bodies ▸ ⟨closed, accepted⟩

theorem Script.reads_single {inner : Text} (closed : Closed inner) (accepted : Accepted inner)
    (unmarked : markerOf (Text.braced inner) = none) :
    (Script.leaf (.span inner) .done).Reads (Text.braced inner) := by
  constructor
  · exact .span closed .nil
  · simp [Script.items, Piece.text]
  · exact ⟨unmarked, trivial⟩
  · intro other single
    cases List.mem_singleton.mp single
    exact accepted

theorem accepted_single {inner : Text} (closed : Closed inner) (accepted : Accepted inner)
    (unmarked : markerOf (Text.braced inner) = none) : Accepted (Text.braced inner) :=
  (Script.reads_single closed accepted unmarked).accepted

namespace Resolve

variable {c : Context} {levels : Nat}

theorem text_flat {t : Text} (flat : Brace.ofText t = []) :
    text c levels t = pure (unescape bracePair t) := by
  obtain ⟨none, render⟩ := Arena.render_flat flat
  rw [text_eq_level, level, Block.ofText_flat flat]
  simp only [none, walk, pure_bind, render]

/-- A single span gives what its instruction gives, as it is: only what stands between spans is
unescaped. -/
theorem text_single {inner : Text} (closed : Closed inner) (accepted : Accepted inner)
    (unmarked : markerOf (Text.braced inner) = none) :
    Alike (text c levels (Text.braced inner))
      ((Piece.span inner).run c (nested c levels) (maxNestedInstructions - levels)) := by
  have alike := text_reads (Script.reads_single closed accepted unmarked) c levels
  simpa [Script.run] using alike

/-- What a single span does once it was counted. -/
theorem text_single_ok {inner t : Text} {start next : Run} (closed : Closed inner)
    (accepted : Accepted inner) (unmarked : markerOf (Text.braced inner) = none)
    (room : start.steps < c.maxSteps)
    (done : (perform c (nested c levels)
      (Verb.ofKeyword (Instruction.decode (Text.braced inner)).keyword)
      (Instruction.decode (Text.braced inner))).outcome
        (start.counted (maxNestedInstructions - levels) (Instruction.decode (Text.braced inner))) =
          (.ok t, next)) :
    (text c levels (Text.braced inner)).outcome start = (.ok t, next) := by
  have allowed : ¬c.maxSteps < start.steps + 1 := by omega
  apply (text_single closed accepted unmarked).ok
  rw [Piece.run, outcome_bind, count_outcome, if_neg allowed]
  exact done

theorem text_append_ok {s t shown rest : Text} {start middle next : Run} (hs : Accepted s)
    (ht : Accepted t) (whole : s.dangling = false)
    (first : (text c levels s).outcome start = (.ok shown, middle))
    (second : (text c levels t).outcome middle = (.ok rest, next)) :
    (text c levels (s ++ t)).outcome start = (.ok (shown ++ rest), next) := by
  apply (text_append c levels hs ht whole).ok
  rw [outcome_bind_ok first, outcome_bind_ok second, outcome_pure]

end Resolve

end ChatCommands
