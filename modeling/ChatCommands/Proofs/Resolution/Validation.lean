import Mathlib
import ChatCommands.Proofs.Expr.Reading
import ChatCommands.Proofs.Resolution.Trace
import ChatCommands.Proofs.Template.Blocks
import ChatCommands.Proofs.Text.Strip

/-!
What the check of a whole template settles, and what it leaves open.

A template is checked before anything in it is executed, and so is what is inside its spans. But
an instruction cuts its body up, and a piece need not be a template: the equals sign may stand
inside a pair of braces, and a semicolon between the markers of a block. Only such a piece is
refused later.
-/

namespace ChatCommands

/-- Inside each span of a template whose markers pair up there is a template again. -/
theorem Closed.accepted_inside {t : Text} (h : Closed t) (pairs : PairedInside t) {x : Text}
    (member : x ∈ Span.texts t) : ∃ body, x = Text.braced body ∧ Closed body ∧ Accepted body := by
  induction h using Closed.part_induction with
  | nil => cases member
  | flat u t hu ht flat ih =>
    rw [Span.texts_append hu ht.balanced, Span.texts_flat flat, List.nil_append] at member
    exact ih ((pairedInside_append hu ht.balanced).mp pairs).2 member
  | span inner t hi ht ih_inner ih =>
    obtain ⟨outer, rest⟩ := (pairedInside_append hi.span ht.balanced).mp pairs
    have paired := (pairedInside_span hi).mp outer
    rw [Span.texts_append hi.span ht.balanced, Span.texts_braced hi, List.mem_append,
      List.mem_cons] at member
    rcases member with (rfl | member) | member
    · exact ⟨inner, rfl, hi, accepted_iff.mpr ⟨hi.balanced, paired⟩⟩
    · exact ih_inner (pairedIn_iff.mp paired).2 member
    · exact ih rest member

theorem Accepted.inside {t : Text} (h : Accepted t) {x : Text} (member : x ∈ Span.texts t) :
    ∃ body, x = Text.braced body ∧ Closed body ∧ Accepted body := by
  obtain ⟨⟨s, hs, eq⟩, pairs⟩ := accepted_iff.mp h
  have inside := (pairedIn_iff.mp pairs).2
  rcases eq with rfl | rfl
  · exact hs.accepted_inside inside member
  · rw [Span.texts_lone hs] at member
    have first := (pairedInside_append hs (balanced_of_flat rfl)).mp inside
    exact hs.accepted_inside first.1 member

theorem flat_of_plain {u : Text} (plain : ∀ c ∈ u, c ≠ '\\' ∧ c ≠ '{' ∧ c ≠ '}') :
    Brace.ofText u = [] ∧ u.dangling = false := by
  rw [Brace.ofText]
  induction u with
  | nil => exact ⟨rfl, rfl⟩
  | cons c u ih =>
    obtain ⟨⟨hc, ho, hx⟩, rest⟩ := List.forall_mem_cons.mp plain
    obtain ⟨flat, whole⟩ := ih rest
    rw [Brace.ofTextAt_plain 0 hc ho hx, Text.dangling_single hc]
    exact ⟨Brace.ofTextAt_eq_nil 1 flat, whole⟩

theorem Verb.keyword_plain {first : Text} (known : Verb.ofKeyword (Text.strip first) ≠ .reference) :
    ∀ c ∈ first, c ≠ '\\' ∧ c ≠ '{' ∧ c ≠ '}' := by
  have letters : ∀ k ∈ keywords, '\\' ∉ k.1 ∧ '{' ∉ k.1 ∧ '}' ∉ k.1 := by decide
  obtain ⟨backslash, opening, closing⟩ := letters _ (mem_keywords known)
  intro c member
  refine ⟨?_, ?_, ?_⟩ <;> rintro rfl
  · exact backslash (Text.mem_strip (by decide) member)
  · exact opening (Text.mem_strip (by decide) member)
  · exact closing (Text.mem_strip (by decide) member)

namespace Block

/-- A template with balanced braces is refused for a marker only. -/
theorem ofText_misplaced {t : Text} (balanced : Balanced t) {e : ParseError}
    (h : ofText t = .error e) : ∃ fault marker position, e = .misplaced fault marker position := by
  rw [ofText, Arena.ofText, balanced.scan_eq] at h
  change (matchAll (.fresh t) >>= fun found => pure (Arena.fresh t, found)) = _ at h
  cases matched : matchAll (.fresh t) with
  | ok found =>
    rw [matched] at h
    cases h
  | error other =>
    rw [matched] at h
    cases h
    obtain ⟨fault, r, _, same⟩ := matchAll_misplaced matched
    exact ⟨fault, _, _, same⟩

end Block

theorem Instruction.accepted_rest {body : Text} (accepted : Accepted body)
    (known : Verb.ofKeyword (decode (Text.braced body)).keyword ≠ .reference) :
    Accepted ((decode (Text.braced body)).rest 0) := by
  have whole := join_cutParts 0 body
  rw [decode_braced] at known ⊢
  rw [rest, List.drop_zero]
  generalize (cutParts 0 body).1 = first at whole known
  generalize (cutParts 0 body).2 = args at whole known ⊢
  cases args with
  | nil => exact accepted_nil
  | cons arg args =>
    have plain : ∀ c ∈ first ++ [';'], c ≠ '\\' ∧ c ≠ '{' ∧ c ≠ '}' := by
      rw [List.forall_mem_append, List.forall_mem_singleton]
      exact ⟨Verb.keyword_plain known, by decide⟩
    obtain ⟨flat, undangling⟩ := flat_of_plain plain
    rw [join_cons, List.append_cons] at whole
    rw [← whole] at accepted
    exact (accepted_append_flat flat undangling).mp accepted

/-- How an instruction comes to hand on a text that is refused, though its body is a template. -/
inductive Instruction.Cut (i : Instruction) : ParseError → Prop where
  | equals {only name value raw : Text} {e : ParseError} :
      Verb.ofKeyword i.keyword = .set → i.args = [only] →
      Text.cutAt '=' only = some (name, value) → raw ∈ [name, value] → '\x7b' ∈ raw →
      Block.ofText raw = .error e → i.Cut e
  | semicolon {raw marker : Text} {fault : Misplaced} {position : Nat} :
      Verb.ofKeyword i.keyword ∈ [Verb.set, .random, .choose, .webrequest] →
      raw ∈ (Verb.ofKeyword i.keyword).handed i → Closed raw →
      Block.ofText raw = .error (.misplaced fault marker position) →
      i.Cut (.misplaced fault marker position)

/-- Only four instructions cut their arguments up, and only a value behind an equals sign leaves
braces unbalanced. -/
theorem Instruction.Torn.cut {body : Text} (closed : Closed body) (accepted : Accepted body)
    {e : ParseError} (torn : (decode (Text.braced body)).Torn e) :
    (decode (Text.braced body)).Cut e := by
  obtain ⟨raw, member, braced, refused⟩ := torn
  have closed_args : ∀ p ∈ (decode (Text.braced body)).args, Closed p := by
    rw [decode_braced]
    exact closed.cutParts.2
  have closed_rest (n : Nat) : Closed ((decode (Text.braced body)).rest n) :=
    closed_join fun p hp => closed_args p (List.mem_of_mem_drop hp)
  have joined := accepted_rest accepted
  have inner : (decode (Text.braced body)).body = body := inner_braced body
  generalize decode (Text.braced body) = i at *
  have split (four : Verb.ofKeyword i.keyword ∈ [Verb.set, .random, .choose, .webrequest])
      (closed_raw : Closed raw) : i.Cut e := by
    obtain ⟨fault, marker, position, rfl⟩ := Block.ofText_misplaced closed_raw.balanced refused
    exact .semicolon four member closed_raw refused
  have sound {u : Text} (h : Accepted u) (same : raw = u) : i.Cut e := by
    obtain ⟨a, blocks, found⟩ := h
    rw [same, found] at refused
    cases refused
  cases verb : Verb.ofKeyword i.keyword with
  | set =>
    rw [verb, Verb.handed, Resolve.setParts] at member
    cases args : i.args with
    | nil =>
      rw [args] at member
      cases member
    | cons name others =>
      cases others with
      | nil =>
        cases cut : Text.cutAt '=' name with
        | none =>
          simp only [args, cut] at member
          cases member
        | some sides =>
          simp only [args, cut] at member
          exact .equals verb args cut member braced refused
      | cons second others =>
        simp only [args, List.mem_cons, List.not_mem_nil, or_false] at member
        refine split (by simp [verb]) ?_
        rcases member with rfl | rfl
        · exact closed_args raw (by simp [args])
        · exact closed_rest 1
  | random =>
    rw [verb] at member split
    exact split (by simp) (closed_args raw (List.mem_of_mem_take member))
  | choose =>
    rw [verb] at member split
    exact split (by simp) (closed_args raw member)
  | webrequest =>
    rw [verb] at member split
    refine split (by simp) ?_
    rw [Verb.handed] at member
    split at member
    · rw [List.mem_append, List.mem_singleton] at member
      rcases member with member | rfl
      · exact closed_args raw (List.mem_of_mem_take member)
      · exact closed_rest 3
    · exact closed_args raw (List.mem_of_mem_take member)
  | marker =>
    rw [verb] at member
    cases member
  | reference =>
    rw [verb, Verb.handed, inner, List.mem_singleton] at member
    exact sound accepted member
  | var | require | exclude | followup | sticker | condition =>
    rw [verb, Verb.handed, List.mem_singleton] at member
    exact sound (joined (by simp [verb])) member

theorem resolve_refused {t : Text} {e : ParseError} (h : Block.ofText t = .error e) (c : Context)
    (start : Run) : resolve c t start = (.error (.template (.parse e)), start) := by
  rw [resolve, Resolve.text_eq_level, Resolve.level_refused h]
  rfl

theorem accepted_of_parse_error {c : Context} {t : Text} {start : Run} {e : ParseError}
    (h : (resolve c t start).1 = .error (.template (.parse e))) (passed : Block.ofText t ≠ .error e) :
    Accepted t := by
  cases parsed : Block.ofText t with
  | error other =>
    rw [resolve_refused parsed] at h
    cases h
    exact (passed parsed).elim
  | ok found => exact ⟨found.1, found.2, parsed⟩

/-- Behind the check of the template, a parse error comes from a span that was counted. -/
theorem late_parse_error {c : Context} {t : Text} {start : Run} {e : ParseError}
    (h : (resolve c t start).1 = .error (.template (.parse e))) (passed : Block.ofText t ≠ .error e) :
    start.steps < (resolve c t start).2.steps ∧
      ∃ executed, (resolve c t start).2.trace = start.trace ++ executed ∧
        ∃ m ∈ executed, m.text ∈ Span.texts t ∧ (Instruction.decode m.text).Cut e := by
  obtain ⟨executed, trace, steps, inside, _, _, cause⟩ :=
    Resolve.faithful_text c (Nat.le_refl _) t start
  obtain ⟨m, counted, torn⟩ := (cause e (resolve_error h)).resolve_left passed
  have member : m.text ∈ Span.texts t := inside.text_mem counted
  obtain ⟨body, span, closed, sound⟩ := (accepted_of_parse_error h passed).inside member
  have some_counted : 0 < executed.length := List.length_pos_of_mem counted
  rw [span] at torn
  refine ⟨?_, executed, trace, m, counted, member, span ▸ torn.cut closed sound⟩
  change start.steps < ((Resolve.text c maxNestedInstructions t).outcome start).2.steps
  omega

/-- A resolution that ends in a parse error leaves everything as it was exactly where the template
is refused as a whole. Elsewhere it has counted a span of the template that cut up its arguments. -/
theorem resolve_parse_error {c : Context} {t : Text} {start : Run} {e : ParseError}
    (h : (resolve c t start).1 = .error (.template (.parse e))) :
    ((resolve c t start).2 = start ↔ Block.ofText t = .error e) ∧
      (Block.ofText t ≠ .error e → Accepted t ∧
        start.steps < (resolve c t start).2.steps ∧
        ∃ executed, (resolve c t start).2.trace = start.trace ++ executed ∧
          ∃ m ∈ executed, m.text ∈ Span.texts t ∧ (Instruction.decode m.text).Cut e) := by
  refine ⟨⟨fun same => ?_, fun refused => ?_⟩, fun passed => ?_⟩
  · by_contra passed
    have more := (late_parse_error h passed).1
    rw [same] at more
    exact Int.lt_irrefl _ more
  · rw [resolve_refused refused]
  · exact ⟨accepted_of_parse_error h passed, late_parse_error h passed⟩

theorem resolve_parse_error_equals :
    let t := "\x7bset;a=1\x7d\x7bset;\x7bb=c\x7d\x7d".toList
    let final := (resolve .bare t (.start ⟨[], [], [], [], [], none⟩)).2
    Accepted t ∧ 0 < final.steps ∧ ∃ executed, final.trace = [] ++ executed ∧
      ∃ m ∈ executed, m.text ∈ Span.texts t ∧
        (Instruction.decode m.text).Cut (.unbalanced (.unclosedOpen 0)) :=
  (resolve_parse_error (by cbv)).2 nofun

/-- A parse error may come after an instruction was executed. -/
theorem parse_error_after_assignment : ¬ ∀ (c : Context) (t : Text) (effects : Effects)
    (e : ParseError), (resolve c t (.start effects)).1 = .error (.template (.parse e)) →
      (resolve c t (.start effects)).2.steps = 0 ∧
        (resolve c t (.start effects)).2.effects = effects := by
  intro claim
  have late := claim .bare "\x7bset;a=1\x7d\x7bset;\x7bb=c\x7d\x7d".toList
    ⟨[], [], [], [], [], none⟩ (.unbalanced (.unclosedOpen 0)) (by cbv)
  have counted : (resolve .bare "\x7bset;a=1\x7d\x7bset;\x7bb=c\x7d\x7d".toList
      (.start ⟨[], [], [], [], [], none⟩)).2.steps = 2 := by cbv
  rw [counted] at late
  cases late.1

end ChatCommands
