import ChatCommands.Proofs.Expr.Secrecy
import ChatCommands.Proofs.Resolution.Escape

/-!
What a resolution keeps secret.

The gates aside, two moments that show the same give the same resolution, unless an instruction
quotes the author or the process: it takes the text of the whole record, as an argument or as a
key. That text has all that the record holds.
-/

namespace ChatCommands

open Resolve

/-- The same context at another moment. -/
def Context.seeing (c : Context) (s : Snapshot) : Context :=
  { c with snapshot := s }

/-- Whether an instruction is one of the two gates. -/
def Instruction.Gates (i : Instruction) : Prop :=
  Verb.ofKeyword i.keyword ∈ [.require, .exclude]

instance (i : Instruction) : Decidable i.Gates :=
  inferInstanceAs (Decidable (_ ∈ _))

namespace Moment

variable (c : Context) (m : Moment)

/-- Whether an instruction reads a text in which a key or an argument is the author or the process
itself. -/
inductive Quotes : Prop where
  | path {t : Text} {p : Path} : m.Follows c t → Path.parse t = .ok p → ¬p.expr.Discreet → Quotes
  | condition {t : Text} {e : Expr} : m.Tests c t → Expr.parse t = .ok e → ¬e.Discreet → Quotes

/-- Whether an instruction depends on nothing but what the snapshot shows. -/
def Silent : Prop :=
  ¬m.instruction.Gates ∧ ¬m.Quotes c

end Moment

namespace Resolve

variable {α β : Type} {c : Context}

/-- Whether a computation only adds to what was counted and keeps variables plain, and another one
does the same from the given states if all that it counts is silent. -/
def AgreesFrom (c : Context) (states : Run → Prop) (x y : Resolve α) : Prop :=
  ∀ start, start.effects.Plain → ∃ counted : List Moment,
    (x.outcome start).2.trace = start.trace ++ counted ∧ (x.outcome start).2.effects.Plain ∧
    (states start → (∀ m ∈ counted, m.Silent c) → y.outcome start = x.outcome start)

namespace AgreesFrom

variable {states : Run → Prop}

theorem mono {weaker : Run → Prop} {x y : Resolve α} (h : AgreesFrom c weaker x y)
    (weaken : ∀ start, states start → weaker start) : AgreesFrom c states x y := by
  intro start plain
  obtain ⟨counted, trace, kept, agree⟩ := h start plain
  exact ⟨counted, trace, kept, fun here => agree (weaken start here)⟩

theorem bind {later : α → Run → Prop} {x y : Resolve α} {f g : α → Resolve β}
    (first : AgreesFrom c states x y) (second : ∀ a, AgreesFrom c (later a) (f a) (g a))
    (leads : ∀ start a next, states start → x.outcome start = (.ok a, next) → later a next) :
    AgreesFrom c states (x >>= f) (y >>= g) := by
  intro start plain
  obtain ⟨counted, trace, kept, agree⟩ := first start plain
  rw [outcome_bind, outcome_bind]
  rcases hx : x.outcome start with ⟨e | a, next⟩ <;> rw [hx] at trace kept agree
  · refine ⟨counted, trace, kept, fun here silent => ?_⟩
    rw [agree here silent]
  · obtain ⟨more, trace', kept', agree'⟩ := second a next kept
    refine ⟨counted ++ more, by rw [trace', trace, List.append_assoc], kept', fun here silent => ?_⟩
    obtain ⟨silent_first, silent_more⟩ := List.forall_mem_append.mp silent
    rw [agree here silent_first]
    exact agree' (leads start a next here hx) silent_more

theorem ofContained {crashes : Crash → Prop} {x y : Resolve α} (h : Contained crashes x)
    (same : ∀ start, start.effects.Plain → states start → y.outcome start = x.outcome start) :
    AgreesFrom c states x y := by
  intro start plain
  obtain ⟨e, state, keeps, _⟩ := h start
  rw [state]
  exact ⟨[], by simp, keeps plain, fun here _ => same start plain here⟩

/-- Nothing is asked of the other computation where no state is given. -/
theorem ofExplained {x y : Resolve α} (h : Explained c x) (none : ∀ start, ¬states start) :
    AgreesFrom c states x y := by
  intro start plain
  obtain ⟨counted, trace, kept, _⟩ := h start plain
  exact ⟨counted, trace, kept, fun here => absurd here (none start)⟩

end AgreesFrom

def agreeing (c : Context) : Lifting fun _ => True where
  rel := AgreesFrom c fun _ => True
  refl h := .ofContained h.contained fun _ _ _ => rfl
  bind first second := first.bind second fun _ _ _ _ _ => trivial

theorem agrees_count (s : Snapshot) (depth : Nat) (i : Instruction) (a : Arena) :
    (agreeing c).rel (count c depth i a) (count (c.seeing s) depth i a) := by
  intro start plain
  have same : (count (c.seeing s) depth i a : Resolve Unit).outcome start =
      (count c depth i a : Resolve Unit).outcome start := rfl
  refine ⟨[⟨i.text, depth, start.effects⟩], ?_, ?_, fun _ _ => same⟩
  · rw [count_outcome]
    rfl
  · rw [count_outcome]
    exact plain

/-- What follows the count of an instruction may rely on its silence. -/
theorem agrees_counted {s : Snapshot} {depth : Nat} {t : Text} {a : Arena} {x y : Resolve α}
    (h : AgreesFrom c (fun r => Moment.Silent c ⟨t, depth, r.effects⟩) x y) :
    (agreeing c).rel (count c depth (Instruction.decode t) a >>= fun _ => x)
      (count (c.seeing s) depth (Instruction.decode t) a >>= fun _ => y) := by
  intro start plain
  let here : Moment := ⟨t, depth, start.effects⟩
  have same : (count (c.seeing s) depth (Instruction.decode t) a : Resolve Unit).outcome start =
      (count c depth (Instruction.decode t) a : Resolve Unit).outcome start := rfl
  rw [outcome_bind, outcome_bind, same, count_outcome]
  by_cases last : c.maxSteps < start.steps + 1
  · rw [if_pos last]
    exact ⟨[here], rfl, plain, fun _ _ => rfl⟩
  · rw [if_neg last]
    obtain ⟨more, trace, kept, agree⟩ := h (start.counted depth (Instruction.decode t)) plain
    refine ⟨here :: more, ?_, kept, fun _ silent => ?_⟩
    · rw [trace]
      exact List.append_assoc start.trace [here] more
    · obtain ⟨silent_here, silent_more⟩ := List.forall_mem_cons.mp silent
      exact agree silent_here silent_more

section Instructions

variable {s : Snapshot} {inner inner' : Text → Resolve Text}

theorem agrees_argument (nested : ∀ t, (agreeing c).rel (inner t) (inner' t)) {raw : Text}
    {fine : Text → Prop} {f g : Text → Resolve α}
    (second : ∀ t, AgreesFrom c (fun _ => fine t) (f t) (g t)) :
    AgreesFrom c (fun r => ∀ t, Gives (argument inner raw) r.effects t → fine t)
      (argument inner raw >>= f) (argument inner' raw >>= g) := by
  have first : AgreesFrom c (fun r => ∀ t, Gives (argument inner raw) r.effects t → fine t)
      (argument inner raw) (argument inner' raw) :=
    ((agreeing c).argument nested raw).mono fun _ _ => trivial
  exact first.bind second fun start t next all given => all t ⟨start, next, rfl, given⟩

variable (shown : c.snapshot.ShowsSame s)
include shown

theorem agrees_lookUp (path : Text) :
    AgreesFrom c (fun _ => ∀ p, Path.parse path = .ok p → p.expr.Discreet) (lookUp c path)
      (lookUp (c.seeing s) path) := by
  have here : Local (fun _ => True) (lookUp c path) := .lookUp fun _ => trivial
  refine .ofContained here.contained fun start plain discreet => ?_
  have mirrors : (start.scope c.snapshot).Mirrors (start.scope s) := ⟨shown, rfl, plain⟩
  have paired := mirrors.resolve discreet
  have snapshot : (c.seeing s).snapshot = s := rfl
  rw [lookUp, lookUp, outcome_scope, outcome_scope, snapshot]
  generalize (start.scope c.snapshot).resolve path = r, (start.scope s).resolve path = r' at paired
  cases r <;> cases r' <;> try exact paired.elim
  · cases paired
    rfl
  · cases paired with
    | none => rfl
    | @some v w same =>
      change Resolve.outcome (do return some (← ofCrash w.rendered)) start =
        Resolve.outcome (do return some (← ofCrash v.rendered)) start
      rw [same.rendered shown]

theorem agrees_follow (nested : ∀ t, (agreeing c).rel (inner t) (inner' t)) (raw : Text)
    (f : Text → Option Text → Text) :
    AgreesFrom c (fun r => ∀ t, Gives (argument inner raw) r.effects t →
        ∀ p, Path.parse t = .ok p → p.expr.Discreet)
      (do
        let path ← argument inner raw
        return f path (← lookUp c path))
      (do
        let path ← argument inner' raw
        return f path (← lookUp (c.seeing s) path)) :=
  agrees_argument nested fun path =>
    (agrees_lookUp shown path).bind (fun _ => (agreeing c).refl (.pure _)) fun _ _ _ _ _ => trivial

theorem agrees_condition (nested : ∀ t, (agreeing c).rel (inner t) (inner' t)) (i : Instruction) :
    AgreesFrom c (fun r => ∀ t, Gives (argument inner (i.rest 0)) r.effects t →
        ∀ e, Expr.parse t = .ok e → e.Discreet)
      (condition c inner i) (condition (c.seeing s) inner' i) := by
  refine agrees_argument nested fun t => ?_
  have here : Local (fun _ => True) (do ofCrash ((← scope c).holds t)) :=
    (Local.scope c).bind fun _ => .ofCrash fun _ _ => trivial
  refine .ofContained here.contained fun start plain discreet => ?_
  have mirrors : (start.scope c.snapshot).Mirrors (start.scope s) := ⟨shown, rfl, plain⟩
  change (ofCrash ((start.scope s).holds t) : Resolve Bool).outcome start =
    (ofCrash ((start.scope c.snapshot).holds t) : Resolve Bool).outcome start
  rw [mirrors.holds discreet]

theorem agrees_all {levels : Nat} (below : levels ≤ maxNestedInstructions)
    (inside : ∀ t, (agreeing c).rel (nested c levels t) (nested (c.seeing s) levels t)) :
    (agreeing c).Executes c (c.seeing s) (nested c levels) (nested (c.seeing s) levels)
      (maxNestedInstructions - levels) := by
  have inner := Moment.inner_eq_nested c below
  have follow {raw : Text} (f : Text → Option Text → Text) (t : Text) (a : Arena)
      (path : (Instruction.decode t).path? = some raw) : (agreeing c).rel
      (count c (maxNestedInstructions - levels) (Instruction.decode t) a >>= fun _ => do
        let path ← argument (nested c levels) raw
        return f path (← lookUp c path))
      (count (c.seeing s) (maxNestedInstructions - levels) (Instruction.decode t) a >>= fun _ => do
        let path ← argument (nested (c.seeing s) levels) raw
        return f path (← lookUp (c.seeing s) path)) := by
    have agrees := agrees_follow shown inside raw f
    refine agrees_counted (agrees.mono fun r silent u given p parsed => ?_)
    by_contra quoting
    exact silent.2 (.path ⟨raw, path, by rwa [inner]⟩ parsed quoting)
  have gate {x y : Resolve Text} (t : Text) (a : Arena) (gates : (Instruction.decode t).Gates)
      (explained : Explained c x) : (agreeing c).rel
      (count c (maxNestedInstructions - levels) (Instruction.decode t) a >>= fun _ => x)
      (count (c.seeing s) (maxNestedInstructions - levels) (Instruction.decode t) a >>=
        fun _ => y) :=
    agrees_counted (.ofExplained explained fun _ silent => silent.1 gates)
  constructor
  · intro t a i
    have counted := agrees_count (c := c) s (maxNestedInstructions - levels) i a
    have alone (t : Text) : (explaining c).rel (nested c levels t) (nested c levels t) :=
      explained_nested below t
    refine (agreeing c).perform inside shown.server_eq counted fun v hv verb => ?_
    simp only [List.mem_cons, List.not_mem_nil, or_false] at hv
    rcases hv with rfl | rfl | rfl | rfl | rfl
    · exact follow _ t a (by rw [Instruction.path?, verb])
    · exact gate t a (by rw [Instruction.Gates, verb]; simp) ((explaining c).require alone rfl i)
    · exact gate t a (by rw [Instruction.Gates, verb]; simp) ((explaining c).exclude alone rfl i)
    · have fetched (url method : Text) (body : Json) :
          (agreeing c).rel (fetch url method body) (fetch url method body) := by
        have here : Contained (fun _ => True) (fetch url method body) := contained_fetch _ _ _
        exact .ofContained here fun _ _ _ => rfl
      exact (agreeing c).bind counted fun _ =>
        (agreeing c).webrequest inside (fun _ => trivial) fetched rfl i
    · exact follow _ t a (by rw [Instruction.path?, verb])
  · intro t a i verb
    have raw : i.condition? = some (i.rest 0) := by rw [Instruction.condition?, verb]
    have agrees := agrees_condition shown inside i
    refine agrees_counted (agrees.mono fun r silent u given e parsed => ?_)
    by_contra quoting
    exact silent.2 (.condition ⟨_, raw, by rwa [inner]⟩ parsed quoting)

theorem agrees_text {levels : Nat} (below : levels ≤ maxNestedInstructions) (t : Text) :
    (agreeing c).rel (text c levels t) (text (c.seeing s) levels t) := by
  have refused (e : ParseError) : (agreeing c).rel (stop (.parse e) : Resolve Text)
      (stop (.parse e)) := fun start plain => ⟨[], by simp [stop], plain, fun _ _ => rfl⟩
  have level {levels : Nat} (below : levels ≤ maxNestedInstructions)
      (inside : ∀ t, (agreeing c).rel (nested c levels t) (nested (c.seeing s) levels t))
      (t : Text) : (agreeing c).rel (text c levels t) (text (c.seeing s) levels t) := by
    rw [text_eq_level, text_eq_level]
    exact (agreeing c).level (agrees_all shown below inside) trivial refused t
  induction levels generalizing t with
  | zero => exact level below (fun _ => (agreeing c).refl (.refuse _)) t
  | succ levels ih => exact level below (ih (Nat.le_of_succ_le below)) t

end Instructions

end Resolve

/-- Without gates, the moments that show the same give the same resolution, unless an instruction
is counted that quotes the author or the process. -/
theorem resolve_secret {c : Context} {s : Snapshot} (shown : c.snapshot.ShowsSame s) {t : Text}
    (ungated : ∀ x ∈ Span.texts t, ¬(Instruction.decode x).Gates) {start : Run}
    (plain : start.effects.Plain) :
    resolve (c.seeing s) t start = resolve c t start ∨
      ∃ counted, (resolve c t start).2.trace = start.trace ++ counted ∧
        ∃ m ∈ counted, m.Quotes c := by
  obtain ⟨counted, trace, _, agree⟩ :=
    agrees_text shown (Nat.le_refl maxNestedInstructions) t start plain
  by_cases quoted : ∃ m ∈ counted, m.Quotes c
  · exact .inr ⟨counted, trace, quoted⟩
  refine .inl ?_
  have silent (m : Moment) (member : m ∈ counted) : m.Silent c := by
    refine ⟨?_, fun quotes => quoted ⟨m, member, quotes⟩⟩
    obtain ⟨executed, trace', _, inside, _⟩ := faithful_text c (Nat.le_refl _) t start
    rw [trace, List.append_cancel_left_eq] at trace'
    subst trace'
    exact ungated _ (inside.text_mem member)
  have same : (Resolve.text (c.seeing s) maxNestedInstructions t).run.run start =
      (Resolve.text c maxNestedInstructions t).run.run start := agree trivial silent
  rw [resolve, resolve, same]

/-- The id of the author does not tell whether the author may moderate. -/
theorem resolve_secret_id :
    let t := "\x7buser.id\x7d".toList
    let start : Run := .start ⟨[], [], [], [], [], none⟩
    let s : Snapshot := { Context.bare.snapshot with
      user := { Context.bare.snapshot.user with roleIds := [.int 7], manageGuild := true } }
    resolve (Context.bare.seeing s) t start = resolve .bare t start := by
  intro t start s
  have shown : Context.bare.snapshot.ShowsSame s :=
    Snapshot.showsSame_iff.mpr ⟨[.int 7], true, _, rfl, rfl⟩
  have ungated : ∀ x ∈ Span.texts t, ¬(Instruction.decode x).Gates := by decide
  have plain : start.effects.Plain := List.forall_mem_nil _
  refine (resolve_secret shown ungated plain).resolve_right ?_
  rintro ⟨counted, trace, m, member, quotes⟩
  have texts : (resolve .bare t start).2.trace.map Moment.text = [t] := by decide +kernel
  have text : m.text = t := by
    rw [trace, List.map_append] at texts
    exact List.mem_singleton.mp
      (texts ▸ List.mem_append_right _ (List.mem_map_of_mem member))
  have parsed : Path.parse "user.id".toList =
      .ok ⟨"user".toList, [.field "id".toList], "user.id".toList⟩ := by cbv
  cases quotes with
  | @path u p follows read quoting =>
    obtain ⟨raw, path, _, _, _, given⟩ := follows
    rw [Moment.instruction, text] at path
    cases path
    cases given
    rw [show Path.parse (Instruction.decode t).body = _ from parsed] at read
    cases read
    exact quoting ⟨trivial, trivial⟩
  | condition tests =>
    obtain ⟨raw, condition, _⟩ := tests
    rw [Moment.instruction, text] at condition
    cases condition

/-- The text of the author tells whether the author may moderate. -/
theorem quoted_author_tells : ¬ ∀ (c : Context) (s : Snapshot) (t : Text) (start : Run),
    c.snapshot.ShowsSame s → (∀ x ∈ Span.texts t, ¬(Instruction.decode x).Gates) →
      start.effects.Plain → (resolve (c.seeing s) t start).1 = (resolve c t start).1 := by
  intro claim
  let seen (manageGuild : Bool) : Snapshot := { Context.bare.snapshot with
    args := [['a'], ['b']], user := { Context.bare.snapshot.user with manageGuild } }
  let length (r : Except Fault Message) : Option Nat := r.toOption.map fun m => m.text.length
  have same := claim (Context.bare.seeing (seen false)) (seen true)
    "\x7bargs.join(user)\x7d".toList (.start ⟨[], [], [], [], [], none⟩)
    (Snapshot.showsSame_iff.mpr ⟨_, true, _, rfl, rfl⟩) (by decide) (List.forall_mem_nil _)
  have different : length (resolve (Context.bare.seeing (seen true))
      "\x7bargs.join(user)\x7d".toList (.start ⟨[], [], [], [], [], none⟩)).1 ≠
    length (resolve (Context.bare.seeing (seen false))
      "\x7bargs.join(user)\x7d".toList (.start ⟨[], [], [], [], [], none⟩)).1 := by
    decide +kernel
  exact different (congrArg length same)

end ChatCommands
