import ChatCommands.Proofs.Resolution.Bodies
import ChatCommands.Proofs.Resolution.Single

/-!
Templates whose references lead nowhere.

Such a reference gives its own text back, in braces. So a template of nothing but such spans comes
out as it was, however deep they are nested, and each of them is counted once.
-/

namespace ChatCommands

open Piece Resolve

theorem Text.dangling_of_unescaped {t : Text} (unescaped : '\\' ∉ t) : t.dangling = false := by
  induction t with
  | nil => rfl
  | cons c t ih =>
    rw [List.mem_cons, not_or] at unescaped
    rw [dangling_single (Ne.symm unescaped.1), ih unescaped.2]

/-- Whether the spans of a text are nested at most `n` levels deep. -/
def Nests (n : Nat) (t : Text) : Prop :=
  ∀ s ∈ Span.spans t, s.depth < n

theorem nests_append {n : Nat} {s t : Text} (hs : Closed s) (ht : Balanced t) :
    Nests n (s ++ t) ↔ Nests n s ∧ Nests n t := by
  unfold Nests
  rw [Span.spans_append hs ht, List.forall_mem_append, List.forall_mem_map]
  simp only [Span.under, List.length_nil, Nat.add_zero]

theorem nests_braced {n : Nat} {inner : Text} (h : Closed inner) :
    Nests (n + 1) (Text.braced inner) ↔ Nests n inner := by
  unfold Nests
  rw [Span.spans_span h, List.forall_mem_cons, List.forall_mem_map]
  simp only [Span.under, List.length_singleton, Nat.add_lt_add_iff_right, Nat.zero_lt_succ,
    true_and]

theorem Verb.ofKeyword_of_unknown {keyword : Text} (unknown : keyword ∉ keywords.map Prod.fst) :
    ofKeyword keyword = .reference := by
  by_contra known
  exact unknown (List.mem_map_of_mem (mem_keywords known))

/-- Whether each span of a text is a reference, to something that the scope does not have. -/
structure Scope.Lacks (s : Scope) (t : Text) : Prop where
  keyword : ∀ x ∈ Span.texts t, (Instruction.decode x).keyword ∉ Verb.keywords.map Prod.fst
  missing : ∀ x ∈ Span.texts t, s.resolve (Instruction.inner x) = .ok none

namespace Scope.Lacks

variable {scope : Scope} {s t : Text}

theorem mono (h : scope.Lacks t) (sub : Span.texts s ⊆ Span.texts t) : scope.Lacks s :=
  ⟨fun x member => h.keyword x (sub member), fun x member => h.missing x (sub member)⟩

theorem append (h : scope.Lacks (s ++ t)) (hs : Closed s) (ht : Closed t) :
    scope.Lacks s ∧ scope.Lacks t := by
  have texts := Span.texts_append hs ht.balanced
  constructor
  · apply h.mono
    rw [texts]
    exact List.subset_append_left _ _
  · apply h.mono
    rw [texts]
    exact List.subset_append_right _ _

theorem inside {inner : Text} (h : scope.Lacks (Text.braced inner)) (hi : Closed inner) :
    scope.Lacks inner := by
  apply h.mono
  rw [Span.texts_braced hi]
  exact List.subset_cons_self _ _

theorem path (h : scope.Lacks t) {x : Text} (member : x ∈ Span.texts t) :
    (Instruction.decode x).path? = some (Instruction.inner x) := by
  have reference := Verb.ofKeyword_of_unknown (h.keyword x member)
  simp only [Instruction.path?, reference, Instruction.body]
  rfl

theorem accepted (h : scope.Lacks t) (closed : Closed t) : Accepted t := by
  have unmarked (parent : Option Nat) : sequence t parent = [] := by
    apply List.filterMap_eq_nil_iff.mpr
    intro s member
    have text : s.text t ∈ Span.texts t := List.mem_map_of_mem member
    rw [Instruction.markerOf_of_path (h.path text), ite_self]
  apply accepted_iff.mpr
  constructor
  · exact closed.balanced
  · intro parent
    rw [unmarked]
    rfl

end Scope.Lacks

namespace Resolve

variable {c : Context} {levels : Nat} {start next : Run} {inner : Text}

/-- Whether a text is its own result, and only its spans were counted. -/
structure Echoes (c : Context) (levels : Nat) (start : Run) (t : Text) (next : Run) : Prop where
  result : (text c levels t).outcome start = (.ok t, next)
  effects : next.effects = start.effects
  steps : next.steps = start.steps + (Span.texts t).length

theorem lookUp_missing {path : Text} (missing : (start.scope c.snapshot).resolve path = .ok none) :
    (lookUp c path : Resolve _).outcome start = (.ok none, start) := by
  rw [lookUp, outcome_scope, missing]
  rfl

/-- A reference that leads nowhere gives its text back, with what is nested in it resolved. -/
theorem perform_missing {resolver : Text → Resolve Text}
    (unknown : (Instruction.decode (Text.braced inner)).keyword ∉ Verb.keywords.map Prod.fst)
    (given : (argument resolver inner).outcome start = (.ok inner, next))
    (missing : (next.scope c.snapshot).resolve inner = .ok none) :
    (perform c resolver (Verb.ofKeyword (Instruction.decode (Text.braced inner)).keyword)
      (Instruction.decode (Text.braced inner))).outcome start =
        (.ok (Text.braced inner), next) := by
  have body : (Instruction.decode (Text.braced inner)).body = inner :=
    Instruction.inner_braced inner
  rw [Verb.ofKeyword_of_unknown unknown, perform, reference, body, outcome_bind_ok given,
    outcome_bind_ok (lookUp_missing missing)]
  rfl

theorem Echoes.append {s t : Text} {middle : Run} (hs : Closed s) (ht : Closed t)
    (accepted : Accepted s) (accepted' : Accepted t) (first : Echoes c levels start s middle)
    (second : Echoes c levels middle t next) : Echoes c levels start (s ++ t) next := by
  constructor
  · exact text_append_ok accepted accepted' hs.whole first.result second.result
  · rw [second.effects, first.effects]
  · rw [second.steps, first.steps, Span.texts_append hs ht.balanced, List.length_append]
    omega

/-- The text inside a span, taken for an argument, is its own result if it is one as a template. -/
theorem argument_echoes (closed : Closed inner) (unescaped : '\\' ∉ inner)
    (nests : Nests levels inner)
    (echoes : ∀ deeper, levels = deeper + 1 → ∃ next, Echoes c deeper start inner next) :
    ∃ next, (argument (nested c levels) inner).outcome start = (.ok inner, next) ∧
      next.effects = start.effects ∧ next.steps = start.steps + (Span.texts inner).length := by
  by_cases opens : '{' ∈ inner
  · cases levels with
    | zero =>
      obtain ⟨x, member⟩ := List.exists_mem_of_ne_nil _ (closed.texts_ne_nil unescaped opens)
      obtain ⟨s, spanned, _⟩ := List.mem_map.mp member
      exact absurd (nests s spanned) (Nat.not_lt_zero _)
    | succ deeper =>
      obtain ⟨next, result, effects, steps⟩ := echoes deeper rfl
      rw [argument, if_pos opens]
      exact ⟨next, result, effects, steps⟩
  · rw [argument, if_neg opens, Span.texts_flat (closed.flat opens)]
    exact ⟨start, rfl, rfl, (Int.add_zero _).symm⟩

/-- A span that leads nowhere is its own result, if what is inside is one. -/
theorem exists_echoes_braced (closed : Closed inner) (unescaped : '\\' ∉ inner)
    (nests : Nests levels inner) (lacks : (start.scope c.snapshot).Lacks (Text.braced inner))
    (room : start.steps < c.maxSteps)
    (echoes : ∀ deeper counted, levels = deeper + 1 → counted.effects = start.effects →
      counted.steps = start.steps + 1 → ∃ next, Echoes c deeper counted inner next) :
    ∃ next, Echoes c levels start (Text.braced inner) next := by
  have here : Text.braced inner ∈ Span.texts (Text.braced inner) := by
    rw [Span.texts_braced closed]
    exact List.mem_cons_self
  obtain ⟨next, given, effects, steps⟩ := argument_echoes closed unescaped nests
    fun deeper below => echoes deeper (start.counted (maxNestedInstructions - levels)
      (Instruction.decode (Text.braced inner))) below rfl rfl
  have same : next.scope c.snapshot = start.scope c.snapshot := by
    rw [Run.scope, effects]
    rfl
  have missing : (next.scope c.snapshot).resolve inner = .ok none := by
    rw [same]
    simpa only [Instruction.inner_braced] using lacks.missing _ here
  have unmarked := Instruction.markerOf_of_path (lacks.path here)
  have accepted := (lacks.inside closed).accepted closed
  have performed := perform_missing (lacks.keyword _ here) given missing
  refine ⟨next, text_single_ok closed accepted unmarked room performed, effects, ?_⟩
  rw [steps, Span.texts_braced closed, List.length_cons]
  simp only [Run.counted]
  omega

/-- A text whose references lead nowhere is its own result. -/
theorem exists_echoes {t : Text} (closed : Closed t) (unescaped : '\\' ∉ t)
    (nests : Nests (levels + 1) t) (lacks : (start.scope c.snapshot).Lacks t)
    (room : start.steps + (Span.texts t).length ≤ c.maxSteps) :
    ∃ next, Echoes c levels start t next := by
  induction closed using Closed.part_induction generalizing levels start with
  | nil => exact ⟨start, by rw [text_flat rfl]; rfl, rfl, (Int.add_zero _).symm⟩
  | flat u t hu ht flat ih =>
    have none : Span.texts u = [] := Span.texts_flat flat
    have kept : unescape bracePair u = u :=
      unescape_of_no_backslash fun member => unescaped (List.mem_append_left _ member)
    have first : Echoes c levels start u start := by
      constructor
      · rw [text_flat flat, kept, outcome_pure]
      · rfl
      · rw [none]
        exact (Int.add_zero _).symm
    have rest := (lacks.append hu ht).2
    rw [Span.texts_append hu ht.balanced, none, List.nil_append] at room
    obtain ⟨next, second⟩ := ih (fun member => unescaped (List.mem_append_right _ member))
      ((nests_append hu ht.balanced).mp nests).2 rest room
    exact ⟨next, first.append hu ht (accepted_flat flat hu.whole) (rest.accepted ht) second⟩
  | span inner t hi ht ih_inner ih =>
    obtain ⟨front, rest⟩ := lacks.append hi.span ht
    obtain ⟨nests_front, nests_rest⟩ := (nests_append hi.span ht.balanced).mp nests
    rw [Span.texts_append hi.span ht.balanced, Span.texts_braced hi, List.length_append,
      List.length_cons] at room
    have unescaped_inner : '\\' ∉ inner := fun member => unescaped (by simp [Text.braced, member])
    have nests_inner := (nests_braced hi).mp nests_front
    obtain ⟨middle, first⟩ : ∃ middle, Echoes c levels start (Text.braced inner) middle := by
      apply exists_echoes_braced hi unescaped_inner nests_inner front (by omega)
      intro deeper counted below effects steps
      subst below
      apply ih_inner unescaped_inner nests_inner
      · rw [Run.scope, effects]
        exact front.inside hi
      · omega
    obtain ⟨next, second⟩ : ∃ next, Echoes c levels middle t next := by
      apply ih (fun member => unescaped (List.mem_append_right _ member)) nests_rest
      · rw [Run.scope, first.effects]
        exact rest
      · rw [first.steps, Span.texts_braced hi, List.length_cons]
        omega
    exact ⟨next, first.append hi.span ht (front.accepted hi.span) (rest.accepted ht) second⟩

end Resolve

theorem resolve_ok {c : Context} {t body : Text} {start final : Run}
    (h : (text c maxNestedInstructions t).outcome start = (.ok body, final)) :
    resolve c t start =
      (.ok ⟨body, final.effects.stickers, final.effects.followups⟩, final) := by
  rw [outcome] at h
  simp only [resolve, h, Except.map]

/-- A template without escapes whose spans all refer to something that is not there comes out as it
was: each span is counted, in order and once, and nothing is changed. -/
theorem resolve_verbatim {c : Context} {t : Text} {start : Run} {spans : List Span}
    (unescaped : '\\' ∉ t) (scanned : Span.scan t = .ok spans)
    (nests : ∀ s ∈ spans, s.depth ≤ maxNestedInstructions)
    (room : start.steps + spans.length ≤ c.maxSteps)
    (keyword : ∀ s ∈ spans, (Instruction.decode (s.text t)).keyword ∉ Verb.keywords.map Prod.fst)
    (missing : ∀ s ∈ spans,
      (start.scope c.snapshot).resolve (Instruction.inner (s.text t)) = .ok none) :
    ∃ executed final, resolve c t start =
        (.ok ⟨t, start.effects.stickers, start.effects.followups⟩, final) ∧
      final.effects = start.effects ∧ final.steps = start.steps + spans.length ∧
      final.trace = start.trace ++ executed ∧
      executed.map Moment.site = spans.map fun s => (s.text t, s.depth) := by
  obtain ⟨balanced, rfl⟩ := scan_eq_ok.mp scanned
  have closed : Closed t := balanced.closed (Text.dangling_of_unescaped unescaped)
  have length : (Span.texts t).length = (Span.spans t).length := List.length_map _
  have lacks : (start.scope c.snapshot).Lacks t :=
    ⟨List.forall_mem_map.mpr keyword, List.forall_mem_map.mpr missing⟩
  obtain ⟨final, result, effects, steps⟩ : ∃ final, Echoes c maxNestedInstructions start t final :=
    exists_echoes closed unescaped (fun s member => Nat.lt_succ_of_le (nests s member)) lacks
      (length ▸ room)
  obtain ⟨executed, matched, trace, counted, sites, -, among, -⟩ := text_counts c t start
  rw [scanned] at among
  rw [result] at trace counted
  dsimp only at trace counted
  have few : executed.length = matched.length := by
    simpa only [List.length_map] using congrArg List.length sites
  have all : matched = Span.spans t := by
    apply among.eq_of_length
    omega
  refine ⟨executed, final, ?_, effects, length ▸ steps, trace, all ▸ sites⟩
  rw [resolve_ok result, effects]

theorem resolve_verbatim_nested :
    let t := "a\x7bx\x7by\x7d;1\x7d b\x7bz\x7d".toList
    let start : Run := .start ⟨[], [], [], [], [], none⟩
    ∃ executed final, resolve .bare t start = (.ok ⟨t, [], []⟩, final) ∧
      final.effects = start.effects ∧ final.steps = 0 + 3 ∧ final.trace = [] ++ executed ∧
      executed.map Moment.site =
        [("\x7bx\x7by\x7d;1\x7d".toList, 0), ("\x7by\x7d".toList, 1), ("\x7bz\x7d".toList, 0)] := by
  intro t start
  have scanned : Span.scan t = .ok [⟨1, 9, none, 0⟩, ⟨3, 6, some 0, 1⟩, ⟨11, 14, none, 0⟩] := rfl
  apply resolve_verbatim (by decide) scanned
  · decide
  · decide
  · decide
  · simp only [List.forall_mem_cons]
    have broken : (start.scope Context.bare.snapshot).resolve "x\x7by\x7d;1".toList = .ok none := by
      cbv
    exact ⟨broken, Scope.resolve_name rfl _, Scope.resolve_name rfl _,
      List.forall_mem_nil _⟩

end ChatCommands
