import Mathlib
import ChatCommands.Proofs.Expr.Evaluation
import ChatCommands.Proofs.Resolution.Handling
import ChatCommands.Proofs.Resolution.Trace

/-!
What a resolution crashes for.

A template error stops a resolution in an orderly way, a crash does not. Whatever crashes is an
instruction that was counted: its expression has a number that is too long, or tells an uptime
that is no number, or the URL of a request is malformed, or the JSON of one has a number that is
too long.
-/

namespace ChatCommands

open Resolve

namespace Resolve

/-- Whether a computation gives a value from some state with these effects. -/
def Gives {α : Type} (x : Resolve α) (effects : Effects) (a : α) : Prop :=
  ∃ start final, start.effects = effects ∧ x.outcome start = (.ok a, final)

/-- What a request crashes for: its URL, its body, or the response to it. -/
inductive RequestCrashes (inner : Text → Resolve Text) (i : Instruction) (effects : Effects) :
    Crash → Prop where
  | url {name url : Text} {more : List Text} {t : Text} {e : Crash} : i.args = name :: url :: more →
      Gives (do
        let _ ← nameArgument inner name
        argument inner url) effects t →
      Url.scheme (Text.strip t) = .error e → RequestCrashes inner i effects e
  | body {name url : Text} {more : List Text} {t : Text} : i.args = name :: url :: more →
      Gives (do
        let _ ← nameArgument inner name
        let _ ← urlArgument inner url
        let _ ← methodArgument inner more.head?
        argument inner (i.rest 3)) effects t →
      Json.read (unescape bodyCharacters t) = .error .tooManyDigits →
      RequestCrashes inner i effects .tooManyDigits
  | response {name url : Text} {more : List Text} {r : Response} : i.args = name :: url :: more →
      Gives (do
        let _ ← nameArgument inner name
        let address ← urlArgument inner url
        let method ← methodArgument inner more.head?
        let body ← bodyArgument inner i address
        fetch address method body) effects r →
      r.isSuccess = true → Json.read r.text = .error .tooManyDigits →
      RequestCrashes inner i effects .tooManyDigits

end Resolve

namespace Instruction

/-- The text that an instruction resolves and then reads as a path. -/
def path? (i : Instruction) : Option Text :=
  match Verb.ofKeyword i.keyword with
  | .var => some (i.rest 0)
  | .reference => some i.body
  | _ => none

/-- The text that an instruction resolves and then reads as a condition. -/
def condition? (i : Instruction) : Option Text :=
  match Verb.ofKeyword i.keyword with
  | .condition => some (i.rest 0)
  | _ => none

end Instruction

namespace Moment

variable (c : Context) (m : Moment)

def instruction : Instruction :=
  Instruction.decode m.text

/-- The resolver of what is nested in an instruction. -/
def inner : Text → Resolve Text :=
  nested c (maxNestedInstructions - m.depth)

omit m in
theorem inner_eq_nested {levels : Nat} (below : levels ≤ maxNestedInstructions) (t : Text)
    (effects : Effects) :
    inner c ⟨t, maxNestedInstructions - levels, effects⟩ = nested c levels := by
  rw [inner, Nat.sub_sub_self below]

/-- Whether an instruction reads a text as a path. -/
def Follows (t : Text) : Prop :=
  ∃ raw, m.instruction.path? = some raw ∧ Gives (argument (m.inner c) raw) m.effects t

/-- Whether an instruction reads a text as a condition. -/
def Tests (t : Text) : Prop :=
  ∃ raw, m.instruction.condition? = some raw ∧ Gives (argument (m.inner c) raw) m.effects t

/-- What an instruction crashes for. -/
inductive Crashes : Crash → Prop where
  | path {t : Text} : m.Follows c t → (Text.strip t).Overlong → Crashes .tooManyDigits
  | condition {t : Text} : m.Tests c t → t.Overlong → Crashes .tooManyDigits
  | uptime {t : Text} {e : Crash} : m.Follows c t ∨ m.Tests c t →
      Uptime.text c.snapshot.uptime = .error e → Crashes e
  | request {e : Crash} : Verb.ofKeyword m.instruction.keyword = .webrequest →
      RequestCrashes (m.inner c) m.instruction m.effects e → Crashes e

end Moment

namespace Resolve

variable {α β : Type} {c : Context}

/-- Whether a computation only adds to what was counted, keeps variables plain, and crashes for a
given cause or for an instruction that it counted. -/
def Blames (c : Context) (cause : Run → Crash → Prop) (x : Resolve α) : Prop :=
  ∀ start, start.effects.Plain → ∃ counted : List Moment,
    (x.outcome start).2.trace = start.trace ++ counted ∧ (x.outcome start).2.effects.Plain ∧
    ∀ e, (x.outcome start).1 = .error (.crash e) → cause start e ∨ ∃ m ∈ counted, m.Crashes c e

/-- Whether a computation crashes only for instructions that it counted. -/
def Explained (c : Context) (x : Resolve α) : Prop :=
  Blames c (fun _ _ => False) x

namespace Blames

variable {cause cause' : Run → Crash → Prop}

theorem mono {x : Resolve α} (h : Blames c cause x) (weaken : ∀ s e, cause s e → cause' s e) :
    Blames c cause' x := by
  intro start plain
  obtain ⟨counted, trace, kept, crashes⟩ := h start plain
  exact ⟨counted, trace, kept, fun e same => (crashes e same).imp_left (weaken start e)⟩

theorem bind {causes : α → Run → Crash → Prop} {x : Resolve α} {f : α → Resolve β}
    (first : Blames c cause x) (second : ∀ a, Blames c (causes a) (f a)) :
    Blames c (fun s e => cause s e ∨ ∃ a s', x.outcome s = (.ok a, s') ∧ causes a s' e)
      (x >>= f) := by
  intro start plain
  obtain ⟨counted, trace, kept, crashes⟩ := first start plain
  rw [outcome_bind]
  rcases hx : x.outcome start with ⟨f | a, next⟩ <;> simp only [hx] at trace kept crashes
  · refine ⟨counted, trace, kept, fun e same => ?_⟩
    exact (crashes e (by cases same; rfl)).imp_left .inl
  · obtain ⟨more, trace', kept', crashes'⟩ := second a next kept
    refine ⟨counted ++ more, by rw [trace', trace, List.append_assoc], kept', fun e same => ?_⟩
    rcases crashes' e same with here | ⟨m, member, there⟩
    · exact .inl (.inr ⟨a, next, hx, here⟩)
    · exact .inr ⟨m, List.mem_append_right _ member, there⟩

theorem ofContainedAt {x : Resolve α}
    (h : ∀ start, start.effects.Plain → ContainedAt (cause start) x start) : Blames c cause x := by
  intro start plain
  obtain ⟨e, state, keeps, faults⟩ := h start plain
  rw [state]
  exact ⟨[], by simp, keeps plain, fun e same => .inl (faults _ same)⟩

theorem ofLocal {crashes : Crash → Prop} {x : Resolve α} (h : Local crashes x) :
    Blames c (fun _ => crashes) x :=
  ofContainedAt fun start _ => h.contained start

theorem ofQuiet {x : Resolve α} (h : Local (fun _ => False) x) : Blames c cause x :=
  (ofLocal h).mono fun _ _ => False.elim

end Blames

def explaining (c : Context) : Lifting fun _ => False where
  rel x _ := Explained c x
  refl := Blames.ofLocal
  bind first second := (first.bind second).mono fun _ _ => by
    rintro (absurd | ⟨_, _, _, absurd⟩) <;> exact absurd

theorem explained_count (depth : Nat) (i : Instruction) (a : Arena) :
    Explained c (count c depth i a) := by
  intro start plain
  rw [count_outcome]
  refine ⟨_, rfl, plain, fun e same => ?_⟩
  split at same <;> cases same

/-- An instruction is to blame for what a computation after its count crashes for. -/
theorem explained_counted {depth : Nat} {t : Text} {a : Arena} {cause : Run → Crash → Prop}
    {x : Resolve α} (h : Blames c cause x)
    (explains : ∀ start e, cause start e → Moment.Crashes c ⟨t, depth, start.effects⟩ e) :
    Explained c (count c depth (Instruction.decode t) a >>= fun _ => x) := by
  intro start plain
  let here : Moment := ⟨t, depth, start.effects⟩
  let next : Run := start.counted depth (Instruction.decode t)
  rw [outcome_bind, count_outcome]
  by_cases last : c.maxSteps < start.steps + 1
  · rw [if_pos last]
    exact ⟨[here], rfl, plain, fun e same => nomatch same⟩
  · rw [if_neg last]
    obtain ⟨more, trace, kept, crashes⟩ := h next plain
    refine ⟨here :: more, ?_, kept, fun e same => .inr ?_⟩
    · rw [trace]
      exact List.append_assoc start.trace [here] more
    · rcases crashes e same with cause | ⟨m, member, crash⟩
      · exact ⟨here, List.mem_cons_self, explains next e cause⟩
      · exact ⟨m, List.mem_cons_of_mem _ member, crash⟩

theorem blames_lookUp (path : Text) : Blames c (fun _ e => (Text.strip path).Unreadable e ∨
    Uptime.text c.snapshot.uptime = .error e) (lookUp c path) := by
  refine Blames.ofContainedAt fun start plain => ?_
  have known : (start.scope c.snapshot).Plain := plain
  have yields := Scope.resolve_yields known.bounds path
  rw [lookUp, ContainedAt, outcome_scope]
  cases resolved : (start.scope c.snapshot).resolve path with
  | error e =>
    rw [resolved] at yields
    refine (Local.throw ?_).contained start
    exact yields
  | ok found =>
    rw [resolved] at yields
    cases found with
    | none => exact (Local.pure none).contained start
    | some v =>
      have reached := yields v rfl
      refine (Local.bind (.ofCrash fun e failed => ?_) fun _ => .pure _).contained start
      exact .inr (reached.untimed (Value.rendered_crash failed))

section Instructions

variable {inner : Text → Resolve Text} (nested : ∀ t, (explaining c).rel (inner t) (inner t))
include nested

/-- What is done with an argument once it is resolved. -/
theorem blames_argument {raw : Text} {causes : Text → Run → Crash → Prop} {f : Text → Resolve α}
    (second : ∀ t, Blames c (causes t) (f t)) :
    Blames c (fun s e => ∃ t s', (argument inner raw).outcome s = (.ok t, s') ∧ causes t s' e)
      (argument inner raw >>= f) :=
  (Blames.bind ((explaining c).argument nested raw) second).mono fun _ _ => by
    rintro (absurd | found)
    · exact absurd.elim
    · exact found

theorem blames_follow (raw : Text) (f : Text → Option Text → Text) :
    Blames c (fun s e => ∃ t, Gives (argument inner raw) s.effects t ∧
        ((Text.strip t).Unreadable e ∨ Uptime.text c.snapshot.uptime = .error e))
      (do
        let path ← argument inner raw
        return f path (← lookUp c path)) := by
  have shown (path : Text) (found : Option Text) : Explained c (pure (f path found)) :=
    Blames.ofLocal (.pure _)
  have rest (path : Text) := (blames_lookUp path).bind (shown path)
  refine (blames_argument nested rest).mono fun s e => ?_
  rintro ⟨t, s', given, cause | ⟨_, _, _, absurd⟩⟩
  · exact ⟨t, ⟨s, s', rfl, given⟩, cause⟩
  · exact absurd.elim

theorem blames_condition (i : Instruction) :
    Blames c (fun s e => ∃ t, Gives (argument inner (i.rest 0)) s.effects t ∧
        (t.Unreadable e ∨ Uptime.text c.snapshot.uptime = .error e)) (condition c inner i) := by
  have rest (t : Text) : Blames c (fun _ e => t.Unreadable e ∨
      Uptime.text c.snapshot.uptime = .error e) (do
        ofCrash ((← scope c).holds t)) := by
    refine Blames.ofContainedAt fun start plain => ?_
    have known : (start.scope c.snapshot).Plain := plain
    have here := Local.ofCrash fun e failed => Scope.holds_crash known.bounds (t := t) failed
    exact here.contained start
  refine (blames_argument nested rest).mono fun s e => ?_
  rintro ⟨t, s', given, cause⟩
  exact ⟨t, ⟨s, s', rfl, given⟩, cause⟩

theorem blames_urlArgument (raw : Text) :
    Blames c (fun s e => ∃ t s', (argument inner raw).outcome s = (.ok t, s') ∧
        Url.scheme (Text.strip t) = .error e) (urlArgument inner raw) := by
  refine blames_argument nested fun t => Blames.ofLocal ?_
  refine Local.bind (.ofCrash fun e failed => failed) fun scheme => ?_
  split
  · exact .pure _
  · exact .refuse _

theorem blames_bodyArgument (i : Instruction) (url : Text) :
    Blames c (fun s e => ∃ t s', (argument inner (i.rest 3)).outcome s = (.ok t, s') ∧
        Json.read (unescape bodyCharacters t) = .error .tooManyDigits ∧ e = .tooManyDigits)
      (bodyArgument inner i url) := by
  unfold bodyArgument
  split
  · exact Blames.ofQuiet (.pure _)
  · refine blames_argument nested fun t => Blames.ofLocal ?_
    dsimp only
    split
    · exact .pure _
    · exact .refuse _
    · exact .throw ⟨‹_›, rfl⟩

omit nested in
theorem local_dataOf (url : Text) (r : Response) :
    Local (fun e => r.isSuccess = true ∧ Json.read r.text = .error .tooManyDigits ∧
      e = .tooManyDigits) (dataOf url r) := by
  unfold dataOf
  split
  · split
    · exact .pure _
    · exact .stop trivial
    · exact .throw ⟨‹_›, ‹_›, rfl⟩
  · exact .stop trivial

theorem blames_webrequest (i : Instruction) :
    Blames c (fun s => RequestCrashes inner i s.effects) (webrequest c inner i) := by
  rw [webrequest]
  by_cases disabled : (!c.requestsEnabled) = true
  · rw [if_pos disabled]
    exact Blames.ofQuiet (.refuse _)
  rw [if_neg disabled]
  split
  · rename_i name url more args
    have tail (name url : Text) (response : Response) : Local (fun e => response.isSuccess = true ∧
        Json.read response.text = .error .tooManyDigits ∧ e = .tooManyDigits) (do
          let data ← dataOf url response
          setEffects ((← effects).assign name (.json data))
          return ([] : Text)) :=
      .bind (local_dataOf url response) fun data =>
        .read fun _ => LocalAt.write (Effects.Plain.assign · name data) rfl (.pure _)
    have fetched (url method : Text) (body : Json) : Explained c (fetch url method body) :=
      Blames.ofContainedAt fun start _ => contained_fetch url method body start
    have all := Blames.bind ((explaining c).nameArgument nested name) fun name =>
      (blames_urlArgument nested url).bind fun url =>
      Blames.bind ((explaining c).methodArgument nested more.head?) fun method =>
      (blames_bodyArgument nested i url).bind fun body =>
      (fetched url method body).bind fun response =>
      Blames.ofLocal (tail name url response)
    refine all.mono fun s e => ?_
    rintro (absurd | ⟨name', s₁, named, ⟨t, s₂, given, refused⟩ | ⟨url', s₂, located, absurd |
      ⟨method, s₃, chosen, ⟨t, s₄, given, read, rfl⟩ | ⟨body, s₄, written, absurd |
      ⟨r, s₅, fetched, success, read, rfl⟩⟩⟩⟩⟩)
    · exact absurd.elim
    · refine .url args ⟨s, s₂, rfl, ?_⟩ refused
      rw [outcome_bind_ok named, given]
    · exact absurd.elim
    · refine .body args ⟨s, s₄, rfl, ?_⟩ read
      rw [outcome_bind_ok named, outcome_bind_ok located, outcome_bind_ok chosen, given]
    · exact absurd.elim
    · refine .response args ⟨s, s₅, rfl, ?_⟩ success read
      rw [outcome_bind_ok named, outcome_bind_ok located, outcome_bind_ok chosen,
        outcome_bind_ok written, fetched]
  · exact Blames.ofQuiet (.refuse _)

end Instructions

theorem Explained.of_alike {x y : Resolve α} (alike : Alike x y) (h : Explained c y) :
    Explained c x := by
  intro start plain
  obtain ⟨counted, trace, kept, crashes⟩ := h start plain
  rw [(alike start).2]
  exact ⟨counted, trace, kept, fun e same => crashes e (alike.error nofun same)⟩

theorem explains_all {levels : Nat} (below : levels ≤ maxNestedInstructions)
    (inside : ∀ t, Explained c (nested c levels t)) :
    (explaining c).Executes c c (nested c levels) (nested c levels)
      (maxNestedInstructions - levels) := by
  have inner := Moment.inner_eq_nested c below
  have follow {raw : Text} (f : Text → Option Text → Text) (t : Text) (a : Arena)
      (path : (Instruction.decode t).path? = some raw) :
      Explained c (count c (maxNestedInstructions - levels) (Instruction.decode t) a >>= fun _ => do
        let path ← argument (nested c levels) raw
        return f path (← lookUp c path)) := by
    refine explained_counted (blames_follow inside raw f) fun start e => ?_
    rintro ⟨u, given, ⟨rfl, long⟩ | timeless⟩
    · exact .path ⟨raw, path, by rwa [inner]⟩ long
    · exact .uptime (.inl ⟨raw, path, by rwa [inner]⟩) timeless
  constructor
  · intro t a i
    have counted := explained_count (c := c) (maxNestedInstructions - levels) i a
    refine (explaining c).perform inside rfl counted fun v hv verb => ?_
    simp only [List.mem_cons, List.not_mem_nil, or_false] at hv
    rcases hv with rfl | rfl | rfl | rfl | rfl
    · exact follow _ t a (by rw [Instruction.path?, verb])
    · exact (explaining c).bind counted fun _ => (explaining c).require inside rfl i
    · exact (explaining c).bind counted fun _ => (explaining c).exclude inside rfl i
    · refine explained_counted (blames_webrequest inside i) fun start e crash => ?_
      exact .request verb (by rwa [inner])
    · exact follow _ t a (by rw [Instruction.path?, verb])
  · intro t a i verb
    have raw : i.condition? = some (i.rest 0) := by rw [Instruction.condition?, verb]
    refine explained_counted (blames_condition inside i) fun start e => ?_
    rintro ⟨u, given, ⟨rfl, long⟩ | timeless⟩
    · exact .condition ⟨_, raw, by rwa [inner]⟩ long
    · exact .uptime (.inr ⟨_, raw, by rwa [inner]⟩) timeless

theorem explained_level {levels : Nat} (below : levels ≤ maxNestedInstructions)
    (inside : ∀ t, Explained c (nested c levels t)) (t : Text) : Explained c (text c levels t) := by
  cases parsed : Block.ofText t with
  | error e =>
    rw [text_eq_level, level_refused parsed]
    exact fun start plain => ⟨[], by simp [stop], plain, nofun⟩
  | ok found =>
    obtain ⟨s, reads⟩ := Script.exists_reads ⟨found.1, found.2, parsed⟩
    have explained := (explaining c).script (explains_all below inside) reads.fits
    exact Explained.of_alike (text_reads reads c levels) explained

theorem explained_text {levels : Nat} (below : levels ≤ maxNestedInstructions) (t : Text) :
    Explained c (text c levels t) := by
  induction levels generalizing t with
  | zero => exact explained_level below (fun _ => Blames.ofLocal (.refuse _)) t
  | succ levels ih => exact explained_level below (ih (Nat.le_of_succ_le below)) t

theorem explained_nested {levels : Nat} (below : levels ≤ maxNestedInstructions) (t : Text) :
    Explained c (nested c levels t) := by
  cases levels with
  | zero => exact Blames.ofLocal (.refuse _)
  | succ levels => exact explained_text (Nat.le_of_succ_le below) t

end Resolve

/-- The kinds of crashes that can escape. -/
theorem Moment.Crashes.kind {c : Context} {m : Moment} {e : Crash} (h : m.Crashes c e) :
    e ∈ [.tooManyDigits, .malformedUrl, .infiniteInteger, .nanInteger] := by
  cases h with
  | path | condition => simp
  | uptime _ timeless =>
    have whole := error_of_map timeless
    unfold Uptime.wholeSeconds at whole
    split at whole <;> cases whole <;> simp
  | request _ crash =>
    cases crash with
    | url _ _ refused =>
      unfold Url.scheme at refused
      dsimp only at refused
      split at refused <;> cases refused
      simp
    | body | response => simp

theorem explained_crash {c : Context} {t : Text} {start : Run} (plain : start.effects.Plain)
    {e : Crash} (crash : (resolve c t start).1 = .error (.crash e)) :
    ∃ counted, (resolve c t start).2.trace = start.trace ++ counted ∧
      ∃ m ∈ counted, m.Crashes c e := by
  obtain ⟨counted, trace, _, crashes⟩ :=
    explained_text (c := c) (Nat.le_refl maxNestedInstructions) t start plain
  exact ⟨counted, trace, (crashes e (resolve_error crash)).resolve_left id⟩

/-- A resolution ends in a message, or in an error of the template, or in a crash that one of the
instructions it counted explains. -/
theorem resolve_explained (c : Context) (t : Text) (rolls : List Nat)
    (transport : Option Transport) :
    match resolve c t (.start ⟨[], [], [], rolls, [], transport⟩) with
    | (.ok _, _) => True
    | (.error (.template _), _) => True
    | (.error (.crash e), final) => ∃ m ∈ final.trace, m.Crashes c e := by
  have plain : (Run.start ⟨[], [], [], rolls, [], transport⟩).effects.Plain := List.forall_mem_nil _
  have explained (e : Crash) := explained_crash (c := c) (t := t) plain (e := e)
  generalize resolve c t (.start ⟨[], [], [], rolls, [], transport⟩) = ended at explained ⊢
  obtain ⟨(fault | e) | message, final⟩ := ended
  · trivial
  · obtain ⟨counted, trace, m, member, explains⟩ := explained e rfl
    refine ⟨m, ?_, explains⟩
    rw [show final.trace = _ from trace]
    exact member
  · trivial

/-- A bracket in a URL escapes as a crash. -/
theorem malformed_url_escapes : ¬ ∀ (c : Context) (t : Text) (rolls : List Nat)
    (transport : Option Transport) (e : Crash),
      (resolve c t (.start ⟨[], [], [], rolls, [], transport⟩)).1 ≠ .error (.crash e) := by
  intro claim
  exact claim .bare "\x7bwebrequest;data;http://[bad\x7d".toList [] none .malformedUrl (by cbv)

end ChatCommands
