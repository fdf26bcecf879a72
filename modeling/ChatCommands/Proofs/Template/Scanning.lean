import ChatCommands.Proofs.Template.Height
import ChatCommands.Proofs.Template.Nesting
import ChatCommands.Template.Error

/-!
What a scan answers, told by the positions of the braces.

A text with balanced braces has a span for each brace that opens. Any other text is refused for
the first brace that closes nothing, or for the last that is left open.
-/

namespace ChatCommands

/-- Whether the message of an error ends with a position. -/
def ParseError.Names (e : ParseError) (p : Nat) : Prop :=
  ∃ what, e.message = what ++ " at position ".toList ++ Text.ofNat p ++ [')']

theorem Imbalance.names_unexpectedClose (q : Nat) :
    (ParseError.unbalanced (.unexpectedClose q)).Names q :=
  ⟨ParseError.unbalancedText ++ " (unexpected '\x7d'".toList, by simp [ParseError.message]⟩

theorem Imbalance.names_unclosedOpen (p : Nat) :
    (ParseError.unbalanced (.unclosedOpen p)).Names p :=
  ⟨ParseError.unbalancedText ++ " (unclosed '\x7b'".toList, by simp [ParseError.message]⟩

/-- A text with braces left open at the given positions, innermost first. -/
inductive Opened : List Nat → Text → Prop where
  | closed {s : Text} : Closed s → Opened [] s
  | brace {opened : List Nat} {s u : Text} : Opened opened s → Closed u →
      Opened (s.length :: opened) (s ++ '{' :: u)

namespace Opened

variable {opened : List Nat} {s : Text}

theorem whole (h : Opened opened s) : s.dangling = false := by
  induction h with
  | closed hs => exact hs.whole
  | brace _ hu ih =>
    rw [Text.dangling_append ih, Text.dangling_single (by decide), hu.whole]

theorem append (h : Opened opened s) {u : Text} (hu : Closed u) : Opened opened (s ++ u) := by
  cases h with
  | closed hs => exact .closed (hs.append hu)
  | brace hs hv =>
    rw [List.append_assoc, List.cons_append]
    exact .brace hs (hv.append hu)

theorem close {p : Nat} (h : Opened (p :: opened) s) : Opened opened (s ++ ['}']) := by
  cases h with
  | brace hs hu =>
    rw [List.append_assoc]
    exact hs.append hu.span

theorem low (h : Opened opened s) : ∀ p ≤ s.length, 0 ≤ s.height p := by
  induction h with
  | closed hs => exact hs.level.low
  | @brace opened s u hs hu ih =>
    intro p inside
    by_cases first : p ≤ s.length
    · rw [Text.height_append_left _ first]
      exact ih p first
    · obtain ⟨k, rfl⟩ : ∃ k, p = s.length + (k + 1) := ⟨p - s.length - 1, by omega⟩
      have bounded : k ≤ u.length := by
        simp only [List.length_append, List.length_cons] at inside
        omega
      have front := ih s.length (Nat.le_refl _)
      have back := hu.level.low k bounded
      rw [Text.height_append_right _ hs.whole, Text.height_cons_open]
      omega

end Opened

/-- Where the braces of a text go wrong. -/
inductive Faulty : Text → Imbalance → Prop where
  | stray {s rest : Text} : Closed s → Faulty (s ++ '}' :: rest) (.unexpectedClose s.length)
  | left {opened : List Nat} {s u : Text} : Opened opened s → Balanced u →
      Faulty (s ++ '{' :: u) (.unclosedOpen s.length)

theorem Opened.faulty {opened : List Nat} {s t : Text} {fault : Imbalance} (h : Opened opened s)
    (found : imbalance opened (Brace.ofTextAt s.length t) = some fault) :
    Faulty (s ++ t) fault := by
  -- What was read so far is `s`: each step moves what it reads from `t` to the end of `s`.
  induction t using Text.glyph_induction generalizing opened s with
  | nil =>
    cases h with
    | closed hs => cases found
    | brace hs hu =>
      cases found
      rw [List.append_nil]
      exact .left hs hu.balanced
  | lone =>
    cases h with
    | closed hs => cases found
    | @brace opened s u hs hu =>
      cases found
      rw [List.append_assoc, List.cons_append]
      exact .left hs ⟨u, hu, .inr rfl⟩
  | escaped d t ih =>
    have next := ih (h.append (.escaped (d := d) .nil))
    rw [Brace.ofTextAt_escaped] at found
    rw [List.append_assoc, List.length_append] at next
    exact next found
  | single c t hc ih =>
    by_cases ho : c = '{'
    · subst ho
      rw [Brace.ofTextAt_open, imbalance] at found
      have next := ih (Opened.brace h .nil)
      rw [List.append_assoc, List.length_append] at next
      exact next found
    · by_cases hx : c = '}'
      · subst hx
        rw [Brace.ofTextAt_close] at found
        cases opened with
        | nil =>
          cases found
          cases h with
          | closed hs => exact .stray hs
        | cons p opened =>
          have next := ih h.close
          rw [List.append_assoc, List.length_append] at next
          exact next found
      · have next := ih (h.append (.plain hc ho hx .nil))
        rw [Brace.ofTextAt_plain _ hc ho hx] at found
        rw [List.append_assoc, List.length_append] at next
        exact next found

namespace Faulty

variable {t : Text}

theorem not_level {fault : Imbalance} (h : Faulty t fault) : ¬ t.Level := by
  intro level
  cases h with
  | @stray s rest hs =>
    have low := level.low (s.length + 1) (by simp)
    rw [Text.height_append_right _ hs.whole, Text.height_cons_close, hs.level.final,
      Text.height_zero] at low
    exact absurd low (by decide)
  | @left opened s u hs hu =>
    have final := level.final
    have front := hs.low s.length (Nat.le_refl _)
    rw [List.length_append, List.length_cons, Text.height_append_right _ hs.whole,
      Text.height_cons_open, hu.level.final] at final
    omega

theorem first_stray {q : Nat} (h : Faulty t (.unexpectedClose q)) :
    t.Stray q ∧ ∀ r < q, ¬ t.Stray r := by
  cases h with
  | @stray s rest hs =>
    have here : (s ++ '}' :: rest).bareAt '}' s.length = true :=
      Text.bareAt_append_right _ hs.whole '}' 0
    have before {p : Nat} (inside : p ≤ s.length) : 0 ≤ (s ++ '}' :: rest).height p := by
      rw [Text.height_append_left _ inside]
      exact hs.level.low p inside
    refine ⟨⟨here, fun p matched => ?_⟩, fun r earlier stray => ?_⟩
    · have start := before (Nat.le_of_lt matched.order)
      have level := matched.level
      rw [Text.height_append_right _ hs.whole, Text.height_cons_close, hs.level.final,
        Text.height_zero] at level
      omega
    · obtain ⟨p, matched⟩ := Text.exists_matched_open stray.1 (before earlier)
      exact stray.2 p matched

theorem last_unclosed {p : Nat} (h : Faulty t (.unclosedOpen p)) :
    (∀ q, ¬ t.Stray q) ∧ t.Unclosed p ∧ ∀ r, p < r → ¬ t.Unclosed r := by
  cases h with
  | @left opened s u hs hu =>
    have here : (s ++ '{' :: u).bareAt '{' s.length = true :=
      Text.bareAt_append_right _ hs.whole '{' 0
    have start : (s ++ '{' :: u).height s.length = s.height s.length :=
      Text.height_append_left _ (Nat.le_refl _)
    have behind (k : Nat) :
        (s ++ '{' :: u).height (s.length + (k + 1)) = s.height s.length + (1 + u.height k) := by
      rw [Text.height_append_right _ hs.whole, Text.height_cons_open]
    have front := hs.low s.length (Nat.le_refl _)
    refine ⟨fun q stray => ?_, ⟨here, fun q matched => ?_⟩, fun r later unclosed => ?_⟩
    · have inside := Text.bareAt_lt stray.1
      have low : 0 ≤ (s ++ '{' :: u).height (q + 1) := by
        by_cases first : q + 1 ≤ s.length
        · rw [Text.height_append_left _ first]
          exact hs.low _ first
        · obtain ⟨k, hk⟩ : ∃ k, q + 1 = s.length + (k + 1) := ⟨q - s.length, by omega⟩
          simp only [List.length_append, List.length_cons] at inside
          have back := hu.level.low k (by omega)
          rw [hk, behind]
          omega
      obtain ⟨p, matched⟩ := Text.exists_matched_open stray.1 low
      exact stray.2 p matched
    · have order := matched.order
      have inside := Text.bareAt_lt matched.closes
      have level := matched.level
      simp only [List.length_append, List.length_cons] at inside
      obtain ⟨k, hk⟩ : ∃ k, q + 1 = s.length + (k + 1) := ⟨q - s.length, by omega⟩
      have back := hu.level.low k (by omega)
      rw [hk, behind, start] at level
      omega
    · have inside := Text.bareAt_lt unclosed.1
      simp only [List.length_append, List.length_cons] at inside
      obtain ⟨k, rfl⟩ : ∃ k, r = s.length + (k + 1) := ⟨r - s.length - 1, by omega⟩
      have back := hu.level.low k (by omega)
      have last : (s ++ '{' :: u).height (s.length + (u.length + 1)) ≤
          (s ++ '{' :: u).height (s.length + (k + 1)) := by
        rw [behind, behind, hu.level.final]
        omega
      obtain ⟨q, matched⟩ := Text.exists_matched_close unclosed.1 (by omega) last
      exact unclosed.2 q matched

end Faulty

namespace Span

theorem starts_ofBraces (around : List Nat) (index : Nat) (bs : List Brace) :
    (ofBraces around index bs).map start = (bs.filter Brace.opens).map Brace.position := by
  induction bs generalizing around index with
  | nil => rfl
  | cons b bs ih =>
    obtain ⟨p, _ | _⟩ := b
    · exact ih _ _
    · exact congrArg (p :: ·) (ih _ _)

theorem opening_positions (k : Nat) (t : Text) :
    ((Brace.ofTextAt k t).filter Brace.opens).map Brace.position =
      ((List.range t.length).filter (t.bareAt '{')).map (k + ·) := by
  induction t using Text.glyph_induction generalizing k with
  | nil => rfl
  | lone => rfl
  | escaped d t ih =>
    have none : (List.range 2).filter (Text.bareAt ['\\', d] '{') = [] := by
      simp [List.filter_eq_nil_iff, Text.bareAt_escape]
    have parts := Text.bare_positions_append (s := ['\\', d]) t (Text.dangling_escaped d []) '{'
    rw [Brace.ofTextAt_escaped, ih]
    refine Eq.trans ?_ (congrArg _ parts.symm)
    rw [List.length_cons, List.length_cons, List.length_nil, none, List.nil_append, List.map_map]
    exact List.map_congr_left fun p _ => Nat.add_assoc k 2 p
  | single c t hc ih =>
    have parts := Text.bare_positions_append (s := [c]) t
      ((Text.dangling_single hc []).trans Text.dangling_nil) '{'
    have later : ((Brace.ofTextAt (k + 1) t).filter Brace.opens).map Brace.position =
        (((List.range t.length).filter (t.bareAt '{')).map (1 + ·)).map (k + ·) := by
      rw [ih, List.map_map]
      exact List.map_congr_left fun p _ => Nat.add_assoc k 1 p
    refine Eq.trans ?_ (congrArg _ parts.symm)
    rw [List.length_singleton, List.map_append, ← later]
    by_cases ho : c = '{'
    · subst ho
      rw [Brace.ofTextAt_open]
      rfl
    · have none : (List.range 1).filter (Text.bareAt [c] '{') = [] := by
        simp [Text.bareAt_single ho]
      rw [none, List.map_nil, List.nil_append]
      by_cases hx : c = '}'
      · subst hx
        rw [Brace.ofTextAt_close]
        rfl
      · rw [Brace.ofTextAt_plain _ hc ho hx]

/-- The spans that a text has by its braces. -/
structure Charts (t : Text) (found : List Span) : Prop where
  starts : found.map start = (List.range t.length).filter (t.bareAt '{')
  pairs : ∀ s ∈ found, ∃ q, s.stop = q + 1 ∧ t.Matched s.start q
  nested : Nested found

/-- What a scan of a text has to answer. -/
def Scanned (t : Text) : Except Imbalance (List Span) → Prop
  | .ok found => t.Level ∧ Charts t found
  | .error (.unexpectedClose q) =>
    ¬ t.Level ∧ (t.Stray q ∧ ∀ r < q, ¬ t.Stray r) ∧
      (ParseError.unbalanced (.unexpectedClose q)).Names q
  | .error (.unclosedOpen p) =>
    ¬ t.Level ∧ ((∀ q, ¬ t.Stray q) ∧ t.Unclosed p ∧ ∀ r, p < r → ¬ t.Unclosed r) ∧
      (ParseError.unbalanced (.unclosedOpen p)).Names p

theorem charts_spans {t : Text} (h : Balanced t) : Charts t (spans t) := by
  constructor
  · rw [spans, starts_ofBraces, Brace.ofText, opening_positions]
    simp
  · intro s hs
    obtain ⟨before, after, split⟩ := List.append_of_mem hs
    obtain ⟨front, inner, rest, cut⟩ := h.exists_cut split
    refine ⟨front.length + (inner.length + 1), cut.stop, ?_⟩
    rw [cut.start, cut.text]
    exact cut.closed.matched cut.whole rest
  · exact h.nested

/-- A scan answers with the spans of a text where its braces are balanced, and else with the brace
that is to blame. -/
theorem scan_scanned (t : Text) : Scanned t (scan t) := by
  cases found : imbalance [] (Brace.ofText t) with
  | none =>
    have balanced := (balanced_iff t).mpr found
    rw [balanced.scan_eq]
    exact ⟨balanced.level, charts_spans balanced⟩
  | some fault =>
    have faulty : Faulty t fault := (Opened.closed .nil).faulty found
    have refused : scan t = .error fault := by rw [scan, found]
    rw [refused]
    cases fault with
    | unexpectedClose q =>
      exact ⟨faulty.not_level, faulty.first_stray, Imbalance.names_unexpectedClose q⟩
    | unclosedOpen p =>
      exact ⟨faulty.not_level, faulty.last_unclosed, Imbalance.names_unclosedOpen p⟩

example : scan "a\x7bb\\\x7b\x7bc\x7d\x7d".toList = .ok [⟨1, 9, none, 0⟩, ⟨5, 8, some 0, 1⟩] :=
  rfl

end Span

end ChatCommands
