import ChatCommands.Proofs.Template.Occurrence
import ChatCommands.Proofs.Resolution.Arguments
import ChatCommands.Proofs.Resolution.Composition

/-!
What a resolution counts, and what a parse error in it comes from.

Whatever is counted is a span of the template, at the depth at which it is nested there, and the
spans are counted in their order. A parse error after the first instruction comes from a text that
an instruction handed on, and the limit of nesting stops only what is nested that deep.
-/

namespace ChatCommands

open Piece

theorem Verb.occurs_handed {body : Text} (closed : Closed body) (v : Verb) {depth : Nat}
    {xs : List Site} (h : Inscribed depth (v.handed (Instruction.decode (Text.braced body))) xs) :
    Occurs depth xs body := by
  have parts := closed.cutParts
  have whole := join_cutParts 0 body
  rw [Instruction.decode_braced] at h
  generalize (cutParts 0 body).1 = first at parts whole h
  generalize (cutParts 0 body).2 = args at parts whole h
  obtain ⟨closed_first, closed_args⟩ := parts
  have all {ys : List Site} (h : Inscribed depth args ys) : Occurs depth ys body := by
    rw [← whole]
    exact Inscribed.join (List.forall_mem_cons.mpr ⟨closed_first, closed_args⟩) (.skip h)
  have grouped (ss ts : List Text) (split : args = ss ++ ts) (nonempty : ts ≠ []) {ys : List Site}
      (h : Inscribed depth (ss ++ [Text.join [';'] ts]) ys) : Occurs depth ys body := by
    rw [split, List.forall_mem_append] at closed_args
    have closed_parts : ∀ t ∈ first :: ss ++ [Text.join [';'] ts], Closed t := by
      rw [List.forall_mem_append, List.forall_mem_cons, List.forall_mem_singleton]
      exact ⟨⟨closed_first, closed_args.1⟩, closed_join closed_args.2⟩
    rw [← whole, split, ← List.cons_append, ← join_regroup _ nonempty]
    exact Inscribed.join closed_parts (.skip h)
  have joined {ys : List Site} (h : Inscribed depth [Text.join [';'] args] ys) :
      Occurs depth ys body := by
    by_cases empty : args = []
    · rw [empty] at h
      exact (Inscribed.single.mp h).before .nil closed.balanced
    · exact grouped [] args rfl empty h
  cases v with
  | set =>
    rcases args with _ | ⟨only, _ | ⟨second, rest⟩⟩
    · cases h
      exact .none _
    · have closed_only := closed_args only (by simp)
      simp only [handed, Resolve.setParts] at h
      cases cut : Text.cutAt '=' only with
      | none =>
        simp only [cut] at h
        cases h
        exact .none _
      | some parts =>
        simp only [cut] at h
        have split := Text.cutAt_eq_some cut
        rw [split] at closed_only
        have inside := Inscribed.sides closed_only h
        rw [← split] at inside
        exact all (Inscribed.single.mpr inside)
    · exact grouped [only] (second :: rest) rfl (by simp) h
  | random => exact all (h.mono (List.take_sublist _ _))
  | choose => exact all h
  | webrequest =>
    simp only [Verb.handed, Instruction.rest] at h
    split at h
    · refine grouped _ _ (List.take_append_drop 3 args).symm ?_ h
      simpa using ‹3 < args.length›
    · exact all (h.mono (List.take_sublist _ _))
  | marker =>
    cases h
    exact .none _
  | reference =>
    rw [Verb.handed, Instruction.body, Instruction.inner_braced] at h
    exact Inscribed.single.mp h
  | var | require | exclude | followup | sticker | condition => exact joined h

/-- The text of a moment and the depth at which it was counted. -/
def Moment.site (m : Moment) : Site :=
  (m.text, m.depth)

theorem Inscribed.text_mem {depth : Nat} {t : Text} {counted : List Moment}
    (inside : Inscribed depth [t] (counted.map Moment.site)) {m : Moment} (hm : m ∈ counted) :
    m.text ∈ Span.texts t := by
  rw [Span.texts_eq depth]
  have site := (Inscribed.single.mp inside).sublist.subset (List.mem_map_of_mem hm)
  exact List.mem_map_of_mem (f := Prod.fst) site

/-- Whether an instruction may hand on a text that is refused with the given error. -/
def Instruction.Torn (i : Instruction) (e : ParseError) : Prop :=
  ∃ raw ∈ (Verb.ofKeyword i.keyword).handed i, '{' ∈ raw ∧ Block.ofText raw = .error e

namespace Resolve

variable {α β : Type}

/-- Whether the limit of nesting is passed at a depth, or by something that was counted. -/
def TooDeep (depth : Nat) (counted : List Moment) : Prop :=
  maxNestedInstructions < depth ∨ ∃ m ∈ counted, maxNestedInstructions ≤ m.depth

/-- What was counted on the way from a state to a result: spans of the given texts in order, each at
its depth. A parse error is blamed on a text, or comes from an instruction that was counted. -/
structure Counted (depth : Nat) (ts : List Text) (blamed : ParseError → Prop) (start : Run)
    (result : Except Fault α × Run) (counted : List Moment) : Prop where
  trace : result.2.trace = start.trace ++ counted
  steps : result.2.steps = start.steps + counted.length
  inside : Inscribed depth ts (counted.map Moment.site)
  allowed : ∀ m ∈ counted, m.depth ≤ maxNestedInstructions
  deep : ∀ n, result.1 = .error (.template (.instruction (.tooDeep n))) → TooDeep depth counted
  cause : ∀ e, result.1 = .error (.template (.parse e)) →
    blamed e ∨ ∃ m ∈ counted, (Instruction.decode m.text).Torn e

/-- Whether a computation only adds spans of the given texts to what was counted. -/
def Follows (depth : Nat) (ts : List Text) (blamed : ParseError → Prop) (x : Resolve α) : Prop :=
  ∀ start, ∃ counted, Counted depth ts blamed start (x.outcome start) counted

/-- Whether a resolver counts only spans of the text it is given, and reports a parse error of that
text before it counts any. -/
def Faithful (depth : Nat) (inner : Text → Resolve Text) : Prop :=
  ∀ t, Follows depth [t] (fun e => Block.ofText t = .error e) (inner t)

variable {depth : Nat}

namespace TooDeep

theorem mono {counted more : List Moment} (h : TooDeep depth counted) (sub : counted ⊆ more) :
    TooDeep depth more :=
  h.imp_right fun ⟨m, hm, deep⟩ => ⟨m, sub hm, deep⟩

/-- What is too deep below an instruction is so because of the instruction. -/
theorem cons {m : Moment} {counted : List Moment} (here : m.depth = depth)
    (h : TooDeep (depth + 1) counted) : TooDeep depth (m :: counted) := by
  rcases h with below | ⟨n, hn, deep⟩
  · exact .inr ⟨m, List.mem_cons_self, by omega⟩
  · exact .inr ⟨n, List.mem_cons_of_mem _ hn, deep⟩

end TooDeep

namespace Follows

variable {ss ts : List Text} {blamed : ParseError → Prop}

theorem quiet {x : Resolve α} (h : Quiet x) : Follows depth ts blamed x := by
  intro start
  obtain ⟨trace, steps, own⟩ := h start
  exact ⟨[], by simpa using trace, by simpa using steps, .nil ts, nofun,
    fun n same => (own _ same).1.elim, fun e same => (own _ same).1.elim⟩

theorem idle {x : Resolve α} (h : Idle x) : Follows depth ts blamed x :=
  .quiet h.quiet

theorem mono {blamed' : ParseError → Prop} {x : Resolve α} (h : Follows depth ss blamed x)
    (sub : ss.Sublist ts) (weaken : ∀ e, blamed e → blamed' e) : Follows depth ts blamed' x := by
  intro start
  obtain ⟨counted, h⟩ := h start
  exact ⟨counted, { h with
    inside := h.inside.mono sub
    cause := fun e same => (h.cause e same).imp_left (weaken e) }⟩

theorem bind {x : Resolve α} {f : α → Resolve β} (first : Follows depth ss blamed x)
    (second : ∀ a, Follows depth ts blamed (f a)) : Follows depth (ss ++ ts) blamed (x >>= f) := by
  intro start
  obtain ⟨counted, trace, steps, inside, allowed, deep, cause⟩ := first start
  rw [outcome_bind]
  rcases hx : x.outcome start with ⟨e | a, next⟩ <;> simp only [hx] at trace steps deep cause
  · refine ⟨counted, trace, steps, ?_, allowed, fun n same => deep n (by cases same; rfl),
      fun e same => cause e (by cases same; rfl)⟩
    exact inside.mono (List.sublist_append_left ss ts)
  · obtain ⟨more, trace', steps', inside', allowed', deep', cause'⟩ := second a next
    refine ⟨counted ++ more, ?_, ?_, ?_, List.forall_mem_append.mpr ⟨allowed, allowed'⟩,
      fun n same => ?_, fun e same => ?_⟩
    · rw [trace', trace, List.append_assoc]
    · rw [steps', steps, List.length_append]
      omega
    · rw [List.map_append]
      exact inside.append inside'
    · exact (deep' n same).mono (List.subset_append_right _ _)
    · refine (cause' e same).imp_right ?_
      rintro ⟨m, hm, torn⟩
      exact ⟨m, List.mem_append_right _ hm, torn⟩

theorem map {x : Resolve α} (h : Follows depth ts blamed x) (f : α → β) :
    Follows depth ts blamed (x >>= fun a => pure (f a)) := by
  have last (a : α) : Follows depth [] blamed (pure (f a)) := .idle (.pure _)
  have all := h.bind last
  rwa [List.append_nil] at all

end Follows

theorem Asks.follows {inner : Text → Resolve Text} (faithful : Faithful depth inner)
    {raws : List Text} {x : Resolve α} (h : Asks inner Quiet raws x) :
    Follows depth raws (fun e => ∃ raw ∈ raws, '{' ∈ raw ∧ Block.ofText raw = .error e) x := by
  induction h with
  | finish h => exact .quiet h
  | @ask raw raws f braced rest ih =>
    have first := (faithful raw).mono (List.Sublist.refl _) fun e same =>
      (⟨raw, List.mem_cons_self, braced, same⟩ :
        ∃ r ∈ raw :: raws, '{' ∈ r ∧ Block.ofText r = .error e)
    refine first.bind fun t => (ih t).mono (List.Sublist.refl _) ?_
    rintro e ⟨r, member, torn⟩
    exact ⟨r, List.mem_cons_of_mem _ member, torn⟩
  | skip _ ih =>
    refine ih.mono (List.sublist_cons_self _ _) ?_
    rintro e ⟨raw, member, torn⟩
    exact ⟨raw, List.mem_cons_of_mem _ member, torn⟩
  | @bind _ raws _ _ idle _ ih =>
    have first : Follows depth []
        (fun e => ∃ raw ∈ raws, '{' ∈ raw ∧ Block.ofText raw = .error e) _ := .idle idle
    exact first.bind ih

/-- A span is counted before anything inside it, which lies one level deeper. -/
theorem follows_span (c : Context) (low : depth ≤ maxNestedInstructions) {body : Text}
    (closed : Closed body) {x : Resolve α} {v : Verb}
    (h : Follows (depth + 1) (v.handed (Instruction.decode (Text.braced body)))
      (Instruction.decode (Text.braced body)).Torn x) :
    Follows depth [Text.braced body] (fun _ => False) (do
      count c depth (Instruction.decode (Text.braced body)) .empty
      x) := by
  intro start
  let here : Moment := ⟨Text.braced body, depth, start.effects⟩
  rw [outcome_bind, count_outcome]
  by_cases last : c.maxSteps < start.steps + 1
  · rw [if_pos last]
    refine ⟨[here], rfl, rfl, ?_, List.forall_mem_singleton.mpr low, nofun, nofun⟩
    exact Inscribed.single.mpr (.span closed (.none _))
  · rw [if_neg last]
    obtain ⟨more, trace, steps, inside, allowed, deep, cause⟩ :=
      h (start.counted depth (Instruction.decode (Text.braced body)))
    refine ⟨here :: more, ?_, ?_, ?_, List.forall_mem_cons.mpr ⟨low, allowed⟩,
      fun n same => (deep n same).cons rfl, fun e same => .inr ?_⟩
    · rw [trace]
      exact List.append_assoc start.trace [here] more
    · rw [steps, List.length_cons]
      simp only [Run.counted]
      omega
    · exact Inscribed.single.mpr (.span closed (v.occurs_handed closed inside))
    · rcases cause e same with torn | ⟨m, hm, torn⟩
      · exact ⟨_, List.mem_cons_self, torn⟩
      · exact ⟨m, List.mem_cons_of_mem _ hm, torn⟩

section Follows

variable {c : Context} {inner : Text → Resolve Text} (low : depth ≤ maxNestedInstructions)
  (faithful : Faithful (depth + 1) inner)
include low faithful

theorem follows_piece {p : Piece} (valid : p.Valid) :
    Follows depth [p.text] (fun _ => False) (p.run c inner depth) := by
  cases p with
  | plain u => exact .idle (.pure _)
  | span body => exact follows_span c low valid ((Asks.perform c _ _).follows faithful)

theorem follows_test {p : Piece} (valid : p.Valid) (opens : p.marker? = some .opens) :
    Follows depth [p.text] (fun _ => False) (p.test c inner depth) := by
  cases p with
  | plain u => cases opens
  | span body =>
    have condition := (Asks.condition c (Instruction.decode (Text.braced body))).follows faithful
    rw [← Verb.ofKeyword_eq_condition.mpr opens] at condition
    exact follows_span c low valid condition

theorem follows_script {s : Script} (fits : s.Fits) (valid : ∀ p ∈ s.items, p.Valid) :
    Follows depth (s.items.map Piece.text) (fun _ => False) (s.run c inner depth) := by
  induction s with
  | done => exact .idle (.pure _)
  | leaf p next ih =>
    obtain ⟨hp, hn⟩ := List.forall_mem_cons.mp valid
    exact (follows_piece low faithful hp).bind fun shown => (ih fits.2 hn).map _
  | ifThen opener yes closer next ih_yes ih =>
    obtain ⟨ho, hy, _, hn⟩ := fits
    simp only [Script.items, List.forall_mem_cons, List.forall_mem_append] at valid
    obtain ⟨valid_opener, valid_yes, _, valid_next⟩ := valid
    simp only [Script.items, List.map_cons, List.map_append]
    refine (follows_test low faithful valid_opener ho).bind fun holds => ?_
    refine Follows.bind ?_ fun shown => ?_
    · cases holds
      · exact .idle (.pure _)
      · exact ih_yes hy valid_yes
    · exact ((ih hn valid_next).map _).mono (List.sublist_cons_self _ _) fun _ => id
  | ifElse opener yes divider no closer next ih_yes ih_no ih =>
    obtain ⟨ho, hy, _, hno, _, hn⟩ := fits
    simp only [Script.items, List.forall_mem_cons, List.forall_mem_append] at valid
    obtain ⟨valid_opener, valid_yes, _, valid_no, _, valid_next⟩ := valid
    have split : (Script.ifElse opener yes divider no closer next).items.map Piece.text =
        [opener.text] ++ ((yes.items.map Piece.text ++ divider.text :: no.items.map Piece.text) ++
          closer.text :: next.items.map Piece.text) := by simp [Script.items]
    rw [split]
    refine (follows_test low faithful valid_opener ho).bind fun holds => ?_
    refine Follows.bind ?_ fun shown => ?_
    · cases holds
      · refine (ih_no hno valid_no).mono ?_ fun _ => id
        exact (List.sublist_cons_self _ _).trans (List.sublist_append_right _ _)
      · exact (ih_yes hy valid_yes).mono (List.sublist_append_left _ _) fun _ => id
    · exact ((ih hn valid_next).map _).mono (List.sublist_cons_self _ _) fun _ => id

end Follows

theorem level_refused {c : Context} {inner : Text → Resolve Text} {depth : Nat} {t : Text}
    {e : ParseError} (h : Block.ofText t = .error e) :
    level c inner depth t = stop (.parse e) := by
  rw [level, h]

theorem faithful_level {c : Context} {inner : Text → Resolve Text}
    (low : depth ≤ maxNestedInstructions) (faithful : Faithful (depth + 1) inner) :
    Faithful depth (level c inner depth) := by
  intro t start
  cases parsed : Block.ofText t with
  | error e =>
    rw [level_refused parsed]
    refine ⟨[], by simp [stop], by simp [stop], .nil _, nofun, nofun, fun p same => .inl ?_⟩
    cases same
    rfl
  | ok found =>
    obtain ⟨s, reads⟩ := Script.exists_reads ⟨found.1, found.2, parsed⟩
    -- The level and the run of its script differ only in what the error of the step limit shows.
    have alike : Alike (level c inner depth t) (s.run c inner depth) := level_reads reads
    have follows : Follows depth (s.items.map Piece.text) (fun _ => False) (s.run c inner depth) :=
      follows_script low faithful reads.fits reads.separated.valid
    obtain ⟨counted, h⟩ := follows start
    have same_end := (alike start).2
    refine ⟨counted, ?_, ?_, ?_, h.allowed, fun n same => h.deep n (alike.error nofun same),
      fun e same => .inr ?_⟩
    · rw [same_end]
      exact h.trace
    · rw [same_end]
      exact h.steps
    · rw [← reads.text]
      exact Inscribed.single.mpr (reads.separated.occurs h.inside)
    · exact (h.cause e (alike.error nofun same)).resolve_left id

/-- Every level of resolution counts spans of its template in order, each at its depth, and finds a
parse error of the template before it counts any. -/
theorem faithful_text (c : Context) {levels : Nat} (few : levels ≤ maxNestedInstructions) :
    Faithful (maxNestedInstructions - levels) (text c levels) := by
  induction levels with
  | zero =>
    refine faithful_level (Nat.le_refl _) fun t start =>
      ⟨[], ?_, ?_, .nil _, nofun, fun _ _ => .inl ?_, nofun⟩
    · exact (List.append_nil _).symm
    · exact (Int.add_zero _).symm
    · exact Nat.lt_succ_self _
  | succ levels ih =>
    have deeper : maxNestedInstructions - (levels + 1) + 1 = maxNestedInstructions - levels := by
      omega
    refine faithful_level (Nat.sub_le _ _) ?_
    rw [deeper]
    exact ih (by omega)

end Resolve

theorem resolve_error {c : Context} {t : Text} {start : Run} {f : Fault}
    (h : (resolve c t start).1 = .error f) :
    ((Resolve.text c maxNestedInstructions t).outcome start).1 = .error f := by
  change ((Resolve.text c maxNestedInstructions t).outcome start).1.map _ = .error f at h
  cases result : ((Resolve.text c maxNestedInstructions t).outcome start).1 with
  | error g =>
    rw [result] at h
    cases h
    rfl
  | ok body =>
    rw [result] at h
    cases h

/-- What a resolution counts are spans of the template, at the depths at which they are nested. -/
theorem Resolve.text_counts (c : Context) (t : Text) (start : Run) :
    ∃ (executed : List Moment) (matched : List Span),
      ((text c maxNestedInstructions t).outcome start).2.trace = start.trace ++ executed ∧
      ((text c maxNestedInstructions t).outcome start).2.steps = start.steps + executed.length ∧
      executed.map Moment.site = matched.map (fun s => (s.text t, s.depth)) ∧
      matched.Pairwise (fun a b => a.start < b.start) ∧
      (match Span.scan t with
        | .ok found => matched.Sublist found
        | .error _ => matched = []) ∧
      (∀ m ∈ executed, m.depth ≤ maxNestedInstructions) ∧
      ∀ n, ((text c maxNestedInstructions t).outcome start).1 =
          .error (.template (.instruction (.tooDeep n))) →
        ∃ s ∈ matched, maxNestedInstructions ≤ s.depth := by
  obtain ⟨executed, trace, steps, inside, allowed, deep, _⟩ :=
    faithful_text c (Nat.le_refl _) t start
  rw [Nat.sub_self] at inside deep
  have spans : ∃ matched : List Span, executed.map Moment.site =
      matched.map (fun s => (s.text t, s.depth)) ∧
        matched.Pairwise (fun a b => a.start < b.start) ∧
        match Span.scan t with
          | .ok found => matched.Sublist found
          | .error _ => matched = [] := by
    rcases (Inscribed.single.mp inside).matched with
      none | ⟨found, matched, scanned, sub, sorted, same⟩
    · refine ⟨[], none, .nil, ?_⟩
      cases Span.scan t with
      | ok found => exact List.nil_sublist _
      | error fault => rfl
    · refine ⟨matched, ?_, sorted, ?_⟩
      · simpa only [Nat.zero_add] using same
      · rw [scanned]
        exact sub
  obtain ⟨matched, same, sorted, among⟩ := spans
  refine ⟨executed, matched, trace, steps, same, sorted, among, allowed, fun n stopped => ?_⟩
  obtain ⟨m, hm, deep⟩ := (deep n stopped).resolve_left (Nat.not_lt_zero _)
  have site : m.site ∈ matched.map (fun s => (s.text t, s.depth)) :=
    same ▸ List.mem_map_of_mem hm
  obtain ⟨s, hs, at_site⟩ := List.mem_map.mp site
  exact ⟨s, hs, by rwa [show s.depth = m.depth from congrArg Prod.snd at_site]⟩

/-- The instructions that a resolution counts are spans of the template, each at most once and
from left to right, however the resolution ends. -/
theorem resolve_counts_spans (c : Context) (t : Text) (start : Run) :
    ∃ (executed : List Moment) (matched : List Span),
      (resolve c t start).2.trace = start.trace ++ executed ∧
      (resolve c t start).2.steps = start.steps + executed.length ∧
      executed.map Moment.text = matched.map (fun s => t.slice s.start s.stop) ∧
      matched.Pairwise (fun a b => a.start < b.start) ∧
      match Span.scan t with
      | .ok found => matched.Sublist found ∧ executed.length ≤ found.length
      | .error _ => executed = [] := by
  obtain ⟨executed, matched, trace, steps, same, sorted, among, _⟩ := Resolve.text_counts c t start
  have texts := congrArg (List.map Prod.fst) same
  rw [List.map_map, List.map_map] at texts
  have few : executed.length = matched.length := by
    rw [← List.length_map Moment.site, same, List.length_map]
  refine ⟨executed, matched, trace, steps, texts, sorted, ?_⟩
  cases scanned : Span.scan t with
  | ok found =>
    rw [scanned] at among
    exact ⟨among, few ▸ among.length_le⟩
  | error fault =>
    rw [scanned] at among
    exact List.eq_nil_of_length_eq_zero (few.trans (by rw [among]; rfl))

end ChatCommands
