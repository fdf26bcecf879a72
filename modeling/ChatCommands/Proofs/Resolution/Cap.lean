import Mathlib
import ChatCommands.Proofs.Resolution.Composition
import ChatCommands.Proofs.Resolution.Handling

/-!
What the step limit does to a resolution.

Two resolutions that differ in the limit alone do the same until the lower limit is reached. There
one of them stops, and the other goes on from the same state.
-/

namespace ChatCommands

def Context.capped (c : Context) (limit : Int) : Context :=
  { c with maxSteps := limit }

namespace Resolve

variable {α β : Type}

/-- Whether a resolution stopped at the limit when it counted one instruction too many, where
`counted` is what was counted without that limit. -/
def StoppedAt (limit : Int) (start : Run) (counted : List Moment)
    (short : Except Fault α × Run) : Prop :=
  ∃ (before : List Moment) (last : Moment) (buffer : Text),
    short.1 = .error (.template (.limit ⟨limit, buffer, last.effects.bindings, last.text⟩)) ∧
    short.2 = ⟨last.effects, max limit start.steps + 1, some last.text,
      start.trace ++ (before ++ [last])⟩ ∧
    start.steps + before.length = max limit start.steps ∧ before ++ [last] <+: counted

/-- Whether a resolution ended before it reached the limit. -/
def Finished (limit : Int) (start : Run) (short : Except Fault α × Run) : Prop :=
  short.2.steps ≤ max limit start.steps ∧ ∀ e, short.1 ≠ .error (.template (.limit e))

/-- Whether one resolution does what the other does, unless the limit stops it. -/
def Curtails (limit : Int) (x y : Resolve α) : Prop :=
  ∀ start, ∃ counted, (y.outcome start).2.trace = start.trace ++ counted ∧
    (y.outcome start).2.steps = start.steps + counted.length ∧
    (Finished limit start (x.outcome start) ∧ y.outcome start = x.outcome start ∨
      StoppedAt limit start counted (x.outcome start))

namespace Curtails

variable {limit : Int}

theorem ofContained {x : Resolve α} (h : Contained (fun _ => True) x) : Curtails limit x x := by
  intro start
  obtain ⟨e, state, _, faults⟩ := h start
  rw [state]
  refine ⟨[], by simp, by simp, .inl ⟨⟨?_, fun l same => faults _ same⟩, rfl⟩⟩
  rw [state]
  exact Int.le_max_right _ _

theorem refused (e : ParseError) :
    Curtails limit (stop (.parse e) : Resolve α) (stop (.parse e)) :=
  fun _ => ⟨[], by simp [stop], by simp [stop], .inl ⟨⟨Int.le_max_right _ _, nofun⟩, rfl⟩⟩

theorem bind {x y : Resolve α} {f g : α → Resolve β} (first : Curtails limit x y)
    (second : ∀ a, Curtails limit (f a) (g a)) : Curtails limit (x >>= f) (y >>= g) := by
  intro start
  obtain ⟨counted, trace, steps, cases⟩ := first start
  rw [outcome_bind, outcome_bind]
  rcases cases with ⟨⟨few, unlimited⟩, same⟩ | ⟨before, last, buffer, stopped, state, full, front⟩
  · rw [same] at trace steps ⊢
    rcases hx : x.outcome start with ⟨f | a, next⟩ <;> simp only [hx] at trace steps few unlimited
    · refine ⟨counted, trace, steps, .inl ⟨⟨few, fun e same => unlimited e ?_⟩, rfl⟩⟩
      cases same
      rfl
    · obtain ⟨more, trace', steps', cases⟩ := second a next
      have bound : max limit next.steps = max limit start.steps := by omega
      rw [trace, List.append_assoc] at trace'
      refine ⟨counted ++ more, trace', by simp only [List.length_append]; omega, ?_⟩
      refine cases.imp ?_ ?_
      · rintro ⟨finished, same'⟩
        exact ⟨⟨bound ▸ finished.1, finished.2⟩, same'⟩
      · rintro ⟨before, last, buffer, stopped, state, full, front⟩
        refine ⟨counted ++ before, last, buffer, stopped, ?_, ?_, ?_⟩
        · rw [state, bound, trace]
          simp only [List.append_assoc]
        · simp only [List.length_append]
          omega
        · rw [List.append_assoc]
          exact (List.prefix_append_right_inj counted).mpr front
  · rcases hx : x.outcome start with ⟨f | a, next⟩ <;> simp only [hx] at stopped state
    · -- The run behind the limit may go on, and only adds to the trace.
      have stops (counted : List Moment) (front : before ++ [last] <+: counted) :
          StoppedAt limit start counted ((.error f, next) : Except Fault β × Run) :=
        ⟨before, last, buffer, by cases stopped; rfl, state, full, front⟩
      rcases hy : y.outcome start with ⟨f' | a, next'⟩ <;> simp only [hy] at trace steps
      · exact ⟨counted, trace, steps, .inr (stops counted front)⟩
      · obtain ⟨more, trace', steps', _⟩ := second a next'
        rw [trace, List.append_assoc] at trace'
        refine ⟨counted ++ more, trace', by simp only [List.length_append]; omega, .inr ?_⟩
        exact stops _ (front.trans (List.prefix_append counted more))
    · cases stopped

theorem count {c : Context} {m m' : Int} (order : m < m') (depth : Nat) (i : Instruction)
    (a : Arena) : Curtails m (count (c.capped m) depth i a) (count (c.capped m') depth i a) := by
  intro start
  rw [count_outcome, count_outcome]
  refine ⟨[⟨i.text, depth, start.effects⟩], rfl, rfl, ?_⟩
  by_cases last : (c.capped m).maxSteps < start.steps + 1
  · rw [if_pos last]
    change m < start.steps + 1 at last
    refine .inr ⟨[], ⟨i.text, depth, start.effects⟩, a.text, rfl, ?_, ?_, List.prefix_rfl⟩
    · have reached : max m start.steps = start.steps := by omega
      rw [reached]
      rfl
    · simp only [List.length_nil]
      omega
  · rw [if_neg last]
    change ¬ m < start.steps + 1 at last
    have later : ¬ (c.capped m').maxSteps < start.steps + 1 := by
      simp only [Context.capped]
      omega
    rw [if_neg later]
    refine .inl ⟨⟨?_, nofun⟩, rfl⟩
    simp only [Run.counted]
    omega

def lifting (limit : Int) : Lifting fun _ => True where
  rel := Curtails limit
  refl h := ofContained h.contained
  bind := bind

theorem text (c : Context) {m m' : Int} (order : m < m') (levels : Nat) (t : Text) :
    Curtails m (text (c.capped m) levels t) (text (c.capped m') levels t) := by
  have whole {inner inner' : Text → Resolve Text} (nested : ∀ t, Curtails m (inner t) (inner' t))
      (depth : Nat) (t : Text) : Curtails m (level (c.capped m) inner depth t)
        (level (c.capped m') inner' depth t) := by
    have counted (i : Instruction) (a : Arena) : (lifting m).rel
        (Resolve.count (c.capped m) depth i a) (Resolve.count (c.capped m') depth i a) :=
      count order depth i a
    have same : (c.capped m).snapshot = (c.capped m').snapshot := rfl
    refine (lifting m).level ⟨fun t a => ?_, fun t a _ => ?_⟩ trivial refused t
    · refine (lifting m).perform nested (congrArg _ same) (counted _ a) fun v hv _ => ?_
      refine (lifting m).bind (counted _ a) fun _ => ?_
      simp only [List.mem_cons, List.not_mem_nil, or_false] at hv
      rcases hv with rfl | rfl | rfl | rfl | rfl
      · exact (lifting m).lookUp nested (fun _ => trivial) same _ _
      · exact (lifting m).require nested same _
      · exact (lifting m).exclude nested same _
      · have fetched (url method : Text) (body : Json) :
            (lifting m).rel (fetch url method body) (fetch url method body) :=
          ofContained (contained_fetch url method body)
        exact (lifting m).webrequest nested (fun _ => trivial) fetched rfl _
      · exact (lifting m).lookUp nested (fun _ => trivial) same _ _
    · refine (lifting m).bind (counted _ a) fun _ => ?_
      exact (lifting m).condition nested (fun _ => trivial) same _
  induction levels generalizing t with
  | zero => exact whole (fun _ => (lifting m).refl (.refuse _)) _ t
  | succ levels ih => exact whole ih _ t

end Curtails

/-- The lower of two limits only cuts a run short. Where it is reached, one instruction too many was
counted, and under the higher limit the same instructions are counted up to that one, each with the
same effects at that moment. -/
theorem text_capped (c : Context) {m m' : Int} (order : m < m') (levels : Nat) (t : Text)
    (start : Run) :
    let short := (text (c.capped m) levels t).outcome start
    let long := (text (c.capped m') levels t).outcome start
    ((∀ e, short.1 ≠ .error (.template (.limit e))) → long = short) ∧
    ∀ e, short.1 = .error (.template (.limit e)) →
      ∃ (before : List Moment) (last : Moment) (after : List Moment),
        short.2 = ⟨last.effects, max m start.steps + 1, some last.text,
          start.trace ++ (before ++ [last])⟩ ∧
        start.steps + before.length = max m start.steps ∧
        long.2.trace = start.trace ++ (before ++ [last]) ++ after ∧
        long.2.steps = start.steps + (before ++ [last] ++ after).length ∧
        e.limit = m ∧ e.bindings = last.effects.bindings ∧ e.instruction = last.text := by
  intro short long
  obtain ⟨counted, trace, steps, cases⟩ := Curtails.text c order levels t start
  constructor
  · intro unlimited
    rcases cases with ⟨_, same⟩ | ⟨_, _, _, stopped, _⟩
    · exact same
    · exact absurd stopped (unlimited _)
  · intro e limited
    rcases cases with ⟨finished, _⟩ | ⟨before, last, buffer, stopped, state, full, after, rfl⟩
    · exact absurd limited (finished.2 e)
    · rw [show short.1 = _ from stopped] at limited
      cases limited
      refine ⟨before, last, after, state, full, ?_, steps, rfl, rfl, rfl⟩
      rw [List.append_assoc]
      exact trace

/-- A limit of one stops at the second instruction, which a limit of two lets pass. -/
theorem text_capped_second :
    let t := "\x7bset;a;1\x7d\x7bset;b;2\x7d".toList
    let start : Run := .start ⟨[], [], [], [], [], none⟩
    let short := (text (Context.bare.capped 1) 50 t).outcome start
    let long := (text (Context.bare.capped 2) 50 t).outcome start
    ∃ (before : List Moment) (last : Moment) (after : List Moment),
      short.2 = ⟨last.effects, 2, some last.text, before ++ [last]⟩ ∧
      long.2.trace = before ++ [last] ++ after ∧ last.text = "\x7bset;b;2\x7d".toList := by
  have limited : ((text (Context.bare.capped 1) 50
      "\x7bset;a;1\x7d\x7bset;b;2\x7d".toList).outcome (.start ⟨[], [], [], [], [], none⟩)).1 =
      .error (.template (.limit ⟨1, "\x7bset;b;2\x7d".toList, [("a".toList, .text ['1'])],
        "\x7bset;b;2\x7d".toList⟩)) := by
    cbv
  obtain ⟨before, last, after, state, _, trace, _, _, _, instruction⟩ :=
    (text_capped .bare (by decide : (1 : Int) < 2) 50 _ _).2 _ limited
  exact ⟨before, last, after, state, trace, instruction.symm⟩

/-- Below zero the limit is passed by more than one, and a run that does not begin at zero counts
fewer instructions before the limit. -/
theorem limit_is_no_count :
    (¬ ∀ (c : Context) (t : Text) (effects : Effects) (m : Int) (e : LimitReached),
      (resolve (c.capped m) t (.start effects)).1 = .error (.template (.limit e)) →
        (resolve (c.capped m) t (.start effects)).2.steps = m + 1) ∧
    ¬ ∀ (c : Context) (t : Text) (start : Run) (m m' : Int) (e : LimitReached), m < m' →
      (resolve (c.capped m) t start).1 = .error (.template (.limit e)) →
        start.trace.length + (m + 1) ≤ (resolve (c.capped m') t start).2.trace.length := by
  constructor
  · intro claim
    have steps := claim .bare "\x7bset;a;1\x7d".toList ⟨[], [], [], [], [], none⟩ (-1)
      ⟨-1, "\x7bset;a;1\x7d".toList, [], "\x7bset;a;1\x7d".toList⟩ (by cbv)
    have counted : (resolve (Context.bare.capped (-1)) "\x7bset;a;1\x7d".toList
        (.start ⟨[], [], [], [], [], none⟩)).2.steps = 1 := by cbv
    rw [counted] at steps
    cases steps
  · intro claim
    have trace := claim .bare "\x7bset;a;1\x7d".toList ⟨⟨[], [], [], [], [], none⟩, 1, none, []⟩ 1 2
      ⟨1, "\x7bset;a;1\x7d".toList, [], "\x7bset;a;1\x7d".toList⟩ (by decide) (by cbv)
    have counted : (resolve (Context.bare.capped 2) "\x7bset;a;1\x7d".toList
        ⟨⟨[], [], [], [], [], none⟩, 1, none, []⟩).2.trace.length = 1 := by cbv
    rw [counted] at trace
    exact absurd trace (by decide)

end Resolve

end ChatCommands
