import ChatCommands.Proofs.Expr.Names
import ChatCommands.Proofs.Json.Escapes
import ChatCommands.Proofs.Resolution.Escape
import ChatCommands.Proofs.Resolution.Single

/-!
The body of a request that is one reference.

What the reference leads to is put in after the template was scanned, so that it reaches the second
unescaping as it is; and that leaves every text alone that is JSON.
-/

namespace ChatCommands

open Piece Resolve

/-- The plain paths to a text: the name of a variable that has it, and the number of an argument. -/
inductive Scope.Refers (s : Scope) (t : Text) : Text → Prop where
  | name {name : Text} : isVariableName name = true → Verb.ofKeyword name = .reference →
      s.root? name = some (.text t) → Refers s t name
  | number {digits : Text} {n : Nat} : digits.Digits → Numeral.readInt digits = some (n : Int) →
      s.snapshot.args[n]? = some t → Refers s t (argumentPath digits)

/-- Whether a text is a single span, which looks up a path that leads from here to a text. -/
structure Resolve.Leads (c : Context) (levels : Nat) (start : Run) (body t : Text) (next : Run) :
    Prop where
  accepted : Accepted body
  single : ∃ inside, Span.scan body = .ok (⟨0, body.length, none, 0⟩ :: inside)
  counted : start.steps < c.maxSteps
  path : ∃ raw path, (Instruction.decode body).path? = some raw ∧
    (argument (nested c levels) raw).outcome (start.counted (maxNestedInstructions - levels)
      (Instruction.decode body)) = (.ok path, next) ∧
    (next.scope c.snapshot).resolve path = .ok (some (.text t))

theorem Marker.verb_of_ofKeyword? {keyword : Text} {kind : Marker}
    (h : ofKeyword? keyword = some kind) :
    Verb.ofKeyword keyword = .condition ∨ Verb.ofKeyword keyword = .marker := by
  unfold ofKeyword? at h
  split at h
  · rename_i same
    rw [same]
    decide
  split at h
  · rename_i same
    rw [same]
    decide
  split at h
  · rename_i same
    rw [same]
    decide
  · cases h

theorem Instruction.markerOf_of_path {t raw : Text} (h : (decode t).path? = some raw) :
    markerOf t = none := by
  rw [path?] at h
  cases found : markerOf t with
  | none => rfl
  | some kind =>
    obtain verb | verb := Marker.verb_of_ofKeyword? found
    · rw [verb] at h
      cases h
    · rw [verb] at h
      cases h

namespace Resolve

variable {c : Context} {levels : Nat} {start next : Run} {body t : Text}

theorem lookUp_text {path : Text}
    (resolved : (start.scope c.snapshot).resolve path = .ok (some (.text t))) :
    (lookUp c path : Resolve _).outcome start = (.ok (some t), start) := by
  rw [lookUp, outcome_scope, resolved]
  rfl

theorem perform_path {inner : Text → Resolve Text} {i : Instruction} {raw path : Text}
    (reads : i.path? = some raw) (given : (argument inner raw).outcome start = (.ok path, next))
    (resolved : (next.scope c.snapshot).resolve path = .ok (some (.text t))) :
    (perform c inner (Verb.ofKeyword i.keyword) i).outcome start = (.ok t, next) := by
  rw [Instruction.path?] at reads
  split at reads
  · rename_i verb
    cases reads
    rw [verb, perform, var, outcome_bind_ok given, outcome_bind_ok (lookUp_text resolved)]
    rfl
  · rename_i verb
    cases reads
    rw [verb, perform, reference, outcome_bind_ok given, outcome_bind_ok (lookUp_text resolved)]
    rfl
  · cases reads

theorem Leads.braced (h : Leads c levels start body t next) :
    ∃ inner, body = Text.braced inner ∧ Closed inner ∧ Accepted inner :=
  Single.braced ⟨h.accepted, h.single⟩

theorem Leads.text (h : Leads c levels start body t next) :
    (text c levels body).outcome start = (.ok t, next) := by
  obtain ⟨inner, rfl, closed, accepted⟩ := h.braced
  obtain ⟨raw, path, reads, given, resolved⟩ := h.path
  apply text_single_ok closed accepted (Instruction.markerOf_of_path reads) h.counted
  exact perform_path reads given resolved

theorem Leads.argument (h : Leads c levels start body t next) :
    (argument (nested c (levels + 1)) body).outcome start = (.ok t, next) := by
  have opening : '{' ∈ body := by
    obtain ⟨inner, rfl, _⟩ := h.braced
    exact List.mem_cons_self
  rw [Resolve.argument, if_pos opening]
  exact h.text

theorem bodyCharacters_foreign : Json.Foreign bodyCharacters := by
  have characters : bodyCharacters = ['{', '}', '[', ']'] := rfl
  intro d member
  rw [characters] at member
  simp only [List.mem_cons, List.not_mem_nil, or_false] at member
  rcases member with rfl | rfl | rfl | rfl <;> exact ⟨by decide, rfl⟩

theorem Leads.bodyArgument {i : Instruction} (four : 3 < i.args.length)
    (h : Leads c levels start (i.rest 3) t next) {v : Json} (json : Json.read t = .ok v)
    (url : Text) : (bodyArgument (nested c (levels + 1)) i url).outcome start = (.ok v, next) := by
  have same := Json.unescape_of_read bodyCharacters_foreign json
  rw [Resolve.bodyArgument, if_neg (by omega), outcome_bind_ok h.argument, same]
  dsimp only
  rw [json]
  rfl

end Resolve

namespace Scope.Refers

variable {s : Scope} {t path : Text}

theorem resolve (h : s.Refers t path) : s.resolve path = .ok (some (.text t)) := by
  cases h with
  | name named _ known => rw [resolve_name named, known]
  | number whole number given => exact resolve_argumentPath whole s number given

theorem letters (h : s.Refers t path) :
    ∀ c ∈ path, Token.isNameChar c = true ∨ c = '.' ∨ Text.isDigit c = true := by
  cases h with
  | name named =>
    obtain ⟨c, rest, rfl, _, letters⟩ := Text.isVariableName_cons named
    exact fun d member => .inl (letters d member)
  | number whole =>
    rw [argumentPath_eq]
    simp only [List.forall_mem_cons]
    exact ⟨.inl rfl, .inl rfl, .inl rfl, .inl rfl, .inr (.inl trivial),
      fun c digit => .inr (.inr (whole.2 c digit))⟩

theorem reference (h : s.Refers t path) : Verb.ofKeyword path = .reference := by
  cases h with
  | name _ other => exact other
  | number _ =>
    by_contra known
    have undotted : ∀ k ∈ Verb.keywords, '.' ∉ k.1 := by decide
    refine undotted _ (Verb.mem_keywords known) ?_
    exact List.mem_append_left _ (by decide)

theorem ne (h : s.Refers t path) {c : Char} (other : Token.isNameChar c = false ∧ c ≠ '.' ∧
    Text.isDigit c = false) : c ∉ path := by
  intro member
  rcases h.letters c member with letter | dot | digit
  · rw [letter] at other
    cases other.1
  · exact other.2.1 dot
  · rw [digit] at other
    cases other.2.2

theorem leads {c : Context} {levels : Nat} {start : Run}
    (h : (start.scope c.snapshot).Refers t path) (counted : start.steps < c.maxSteps) :
    Leads c levels start (Text.braced path) t
      (start.counted (maxNestedInstructions - levels) (Instruction.decode (Text.braced path))) := by
  have plain : ∀ d ∈ path, d ≠ '\\' ∧ d ≠ '{' ∧ d ≠ '}' := by
    intro d member
    refine ⟨?_, ?_, ?_⟩ <;> rintro rfl <;> exact h.ne (by decide) member
  obtain ⟨flat, whole⟩ := flat_of_plain plain
  have closed := closed_of_flat flat whole
  have visible : Text.strip path = path := by
    refine Text.strip_of_visible fun d member => ?_
    rcases h.letters d member with letter | rfl | digit
    · exact Token.isNameChar_visible letter
    · decide
    · exact Text.isBlank_of_isDigit digit
  have decoded : Instruction.decode (Text.braced path) = ⟨path, [], Text.braced path⟩ := by
    rw [Instruction.decode_braced, cutParts_whole plain (h.ne (by decide)), visible]
  have reads : (Instruction.decode (Text.braced path)).path? = some path := by
    rw [Instruction.path?, decoded]
    dsimp only
    rw [h.reference]
    simp [Instruction.body]
  have unmarked := Instruction.markerOf_of_path reads
  refine ⟨accepted_single closed (accepted_flat flat whole) unmarked, ?_, counted, path, path,
    reads, ?_, h.resolve⟩
  · refine ⟨(Span.spans path).map (Span.under [0] 1 1), ?_⟩
    rw [closed.span.balanced.scan_eq, Span.spans_span closed]
    simp [Text.braced]
  · rw [Resolve.argument, if_neg (h.ne (by decide))]
    rfl

end Scope.Refers

/-- The second unescaping of a body changes no text that is JSON, so that a body which refers to
such a text is read as that very text. -/
theorem body_of_reference {t : Text} {v : Json} (json : Json.read t = .ok v) :
    unescape bodyCharacters t = t ∧
    (∀ (c : Context) (levels : Nat) (start next : Run) (i : Instruction) (url : Text),
      3 < i.args.length → Leads c levels start (i.rest 3) t next →
        (bodyArgument (nested c (levels + 1)) i url).outcome start = (.ok v, next)) ∧
    ∀ (c : Context) (levels : Nat) (start : Run) (i : Instruction) (url path : Text),
      3 < i.args.length → i.rest 3 = Text.braced path →
      (start.scope c.snapshot).Refers t path → start.steps < c.maxSteps →
        (bodyArgument (nested c (levels + 1)) i url).outcome start = (.ok v,
          start.counted (maxNestedInstructions - levels) (Instruction.decode (i.rest 3))) := by
  refine ⟨Json.unescape_of_read bodyCharacters_foreign json, ?_, ?_⟩
  · intro c levels start next i url four leads
    exact leads.bodyArgument four json url
  · intro c levels start i url path four single refers counted
    refine Leads.bodyArgument four ?_ json url
    rw [single]
    exact refers.leads counted

theorem body_of_reference_backslash :
    let t := "[\x22\\\\]\x22]".toList
    let i := Instruction.decode "\x7bwebrequest;d;http://x;POST;\x7bm\x7d\x7d".toList
    let start : Run := .start ⟨[("m".toList, .text t)], [], [], [], [], none⟩
    unescape bodyCharacters t = t ∧
      (bodyArgument (nested .bare 50) i []).outcome start =
        (.ok (.array [.text "\\]".toList]),
          start.counted 1 (Instruction.decode (i.rest 3))) := by
  intro t i start
  have json : Json.read "[\x22\\\\]\x22]".toList = .ok (.array [.text "\\]".toList]) := by cbv
  obtain ⟨same, _, read⟩ := body_of_reference json
  have four : 3 < i.args.length := by decide
  have single : i.rest 3 = Text.braced "m".toList := rfl
  have counted : start.steps < Context.bare.maxSteps := by
    change (0 : Int) < 1000
    decide
  exact ⟨same, read .bare 49 start i [] _ four single (.name rfl rfl rfl) counted⟩

end ChatCommands
