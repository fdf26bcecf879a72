import ChatCommands.Proofs.Resolution.Simulation
import ChatCommands.Proofs.Resolution.Trace
import ChatCommands.Resolution.Descent

/-!
What the counter for the nesting depth shows.

A resolution that starts at some depth gives what the resolution gives that is told its depth, and
the counter stands where it stood. The relation is proved for each single step of an instruction,
then for the levels by induction.
-/

namespace ChatCommands

namespace Descent

variable {α β : Type}

def outcome (y : Descent α) (d : Depth) (start : Run) : (Except Fault α × Depth) × Run :=
  (y.run.run d).run start

theorem outcome_bind (y : Descent α) (g : α → Descent β) (d : Depth) (start : Run) :
    (y >>= g).outcome d start = match y.outcome d start with
      | ((.ok a, d'), next) => (g a).outcome d' next
      | ((.error e, d'), next) => ((.error e, d'), next) := by
  change (match y.outcome d start with
    | ((r, d'), next) => ExceptT.bindCont g r d' next) = _
  rcases y.outcome d start with ⟨⟨_ | _, d'⟩, next⟩ <;> rfl

theorem outcome_finally (y : Descent α) (f : Depth → Depth) (d : Depth) (start : Run) :
    (try y finally modifyThe Depth f : Descent α).outcome d start =
      (((y.outcome d start).1.1, f (y.outcome d start).1.2), (y.outcome d start).2) := by
  simp only [outcome, tryFinally, tryFinally', ExceptT.run, StateT.run, Functor.map, ExceptT.map,
    ExceptT.mk, bind, StateT.bind]
  rcases y d start with ⟨⟨_ | _, _⟩, _⟩ <;> rfl

theorem outcome_deeper (inner : Text → Descent Text) (raw : Text) (d : Depth) (start : Run) :
    (deeper inner raw).outcome d start =
      if maxNestedInstructions ≤ d.now then
        ((.error (.template (.instruction (.tooDeep maxNestedInstructions))), d), start)
      else
        ((((inner raw).outcome d.descend start).1.1,
          ((inner raw).outcome d.descend start).1.2.ascend),
          ((inner raw).outcome d.descend start).2) := by
  have tested : (deeper inner raw).outcome d start =
      (if maxNestedInstructions ≤ d.now then
        Resolve.refuse (.tooDeep maxNestedInstructions) >>= fun _ => _
      else _ : Descent Text).outcome d start := rfl
  rw [tested]
  split
  · rfl
  · exact outcome_finally (inner raw) Depth.ascend d.descend start

/-- Whether a computation at a depth does what another does that knows of no counter, and leaves the
counter there without having passed the limit. -/
def Tracks (now : Nat) (x : Resolve α) (y : Descent α) : Prop :=
  ∀ (deepest : Nat) (start : Run), now ≤ deepest → deepest ≤ maxNestedInstructions →
    ∃ reached, deepest ≤ reached ∧ reached ≤ maxNestedInstructions ∧
      y.outcome ⟨now, deepest⟩ start =
        (((x.outcome start).1, ⟨now, reached⟩), (x.outcome start).2)

namespace Tracks

variable {now : Nat}

/-- What does not look at the counter does the same without it. -/
theorem steady {x : Resolve α} {y : Descent α}
    (same : ∀ d start, y.outcome d start = (((x.outcome start).1, d), (x.outcome start).2)) :
    Tracks now x y :=
  fun deepest start _ below => ⟨deepest, Nat.le_refl _, below, same _ start⟩

theorem pure (a : α) : Tracks now (pure a) (pure a) :=
  steady fun _ _ => rfl

theorem throw (f : Fault) : Tracks now (throw f : Resolve α) (throw f) :=
  steady fun _ _ => rfl

theorem bind {x : Resolve α} {y : Descent α} {f : α → Resolve β} {g : α → Descent β}
    (first : Tracks now x y) (second : ∀ a, Tracks now (f a) (g a)) :
    Tracks now (x >>= f) (y >>= g) := by
  intro deepest start above below
  obtain ⟨reached, further, below', same⟩ := first deepest start above below
  rw [outcome_bind, same, Resolve.outcome_bind]
  rcases x.outcome start with ⟨e | a, next⟩
  · exact ⟨reached, further, below', rfl⟩
  · obtain ⟨reached', further', below'', same'⟩ :=
      second a reached next (Nat.le_trans above further) below'
    exact ⟨reached', Nat.le_trans further further', below'', same'⟩

theorem count (c : Context) (depth : Nat) (i : Instruction) (a : Arena) :
    Tracks now (Resolve.count c depth i a) (Resolve.count c depth i a) := by
  refine steady fun d start => ?_
  have counted : (Resolve.count c depth i a : Descent Unit).outcome d start =
      (if c.maxSteps < start.steps + 1 then
        Resolve.stop (.limit ⟨c.maxSteps, a.text, start.effects.bindings, i.text⟩)
      else Pure.pure () : Descent Unit).outcome d (start.counted depth i) := rfl
  rw [counted, Resolve.count_outcome]
  split <;> rfl

def simulation (now : Nat) : Resolve.Simulation Descent where
  rel := Tracks now
  pure := pure
  throw := throw
  bind := bind
  effects := steady fun _ _ => rfl
  setEffects _ := steady fun _ _ => rfl
  scope _ := steady fun _ _ => rfl
  count := count

/-- Below the limit an argument is resolved one level deeper, and the counter comes back. -/
theorem deeper {inner : Text → Resolve Text} {inner' : Text → Descent Text}
    (room : now < maxNestedInstructions) (nested : ∀ t, Tracks (now + 1) (inner t) (inner' t))
    (raw : Text) : Tracks now (inner raw) (Descent.deeper inner' raw) := by
  intro deepest start above below
  obtain ⟨reached, further, below', same⟩ :=
    nested raw (max deepest (now + 1)) start (Nat.le_max_right _ _) (Nat.max_le.mpr ⟨below, room⟩)
  refine ⟨reached, Nat.le_trans (Nat.le_max_left _ _) further, below', ?_⟩
  rw [outcome_deeper, if_neg (Nat.not_le_of_lt room), Depth.descend, same]
  rfl

theorem deeper_refused (inner : Text → Descent Text) (raw : Text) :
    Tracks maxNestedInstructions (Resolve.refuse (.tooDeep maxNestedInstructions))
      (Descent.deeper inner raw) := by
  intro deepest start _ below
  refine ⟨deepest, Nat.le_refl _, below, ?_⟩
  rw [outcome_deeper, if_pos (Nat.le_refl _)]
  rfl

/-- The counter is read where it stands. -/
theorem reading {x : Resolve α} {g : Nat → Descent α} (h : Tracks now x (g now)) :
    Tracks now x (depth >>= g) :=
  h

section Levels

variable {c : Context} {inner : Text → Resolve Text} {inner' : Text → Descent Text}
  (nested : ∀ t, Tracks now (inner t) (inner' t))
include nested

theorem walk (blocks : List Block) (rs : List Region) (a : Arena) :
    Tracks now (Resolve.walk c inner now blocks rs a) (Descent.walk c inner' blocks rs a) := by
  induction rs generalizing a with
  | nil => exact pure a
  | cons r rest ih =>
    rw [Resolve.walk, Descent.walk]
    split
    · exact ih a
    · refine reading ((count c now _ a).bind fun _ => ?_)
      cases Verb.ofKeyword (Instruction.decode (a.regionText r)).keyword with
      | condition =>
        refine bind ((simulation now).condition nested c _) fun holds => ?_
        cases blocks.find? fun b => b.opener.index == r.index with
        | some b => exact ih _
        | none => exact throw _
      | _ => exact bind ((simulation now).perform nested c _ _) fun new => ih _

theorem level (t : Text) :
    Tracks now (Resolve.level c inner now t) (Descent.level c inner' t) := by
  rw [Resolve.level, Descent.level]
  cases Block.ofText t with
  | error e => exact throw _
  | ok found => exact (walk nested _ _ _).bind fun _ => pure _

end Levels

/-- The levels that the counter leaves are the levels that a resolution is told. -/
theorem text (c : Context) {levels : Nat} (few : levels ≤ maxNestedInstructions) {most : Nat}
    (enough : levels ≤ most) (t : Text) :
    Tracks (maxNestedInstructions - levels) (Resolve.text c levels t) (Descent.text c most t) := by
  induction levels generalizing most t with
  | zero =>
    -- The counter refuses to go deeper, whatever levels the recursion has left.
    cases most with
    | zero => exact level (deeper_refused _) t
    | succ most => exact level (deeper_refused _) t
  | succ levels ih =>
    obtain ⟨most, rfl⟩ : ∃ k, most = k + 1 := ⟨most - 1, by omega⟩
    have below : maxNestedInstructions - (levels + 1) + 1 = maxNestedInstructions - levels := by
      omega
    refine level (deeper (by omega) fun t => ?_) t
    rw [below]
    exact ih (by omega) (by omega) t

end Tracks

/-- A whole resolution is the same with the counter and without it. -/
theorem resolve_eq (c : Context) (t : Text) (start : Run) :
    ∃ reached ≤ maxNestedInstructions, resolve c t .top start =
      (((ChatCommands.resolve c t start).1, ⟨0, reached⟩), (ChatCommands.resolve c t start).2) := by
  obtain ⟨reached, _, below, same⟩ := Tracks.text c (Nat.le_refl maxNestedInstructions)
    (Nat.le_refl _) t 0 start (Nat.le_refl _) (Nat.zero_le _)
  refine ⟨reached, below, ?_⟩
  rw [Nat.sub_self] at same
  rw [resolve, Depth.top, show StateT.run _ _ = _ from same]
  rfl

/-- The counter gives each instruction the depth that the scan of the template gives its span, it
stands at zero whenever a resolution has ended, and it refuses only a template that has a span at
the depth of the limit. -/
theorem resolve_depth (c : Context) (t : Text) (start : Run) :
    let ((result, last), final) := resolve c t .top start
    last.now = 0 ∧ last.deepest ≤ maxNestedInstructions ∧
    ∃ (executed : List Moment) (matched : List Span),
      final.trace = start.trace ++ executed ∧
      final.steps = start.steps + executed.length ∧
      executed.map (fun m => (m.text, m.depth)) =
        matched.map (fun s => (t.slice s.start s.stop, s.depth)) ∧
      matched.Pairwise (fun a b => a.start < b.start) ∧
      (match Span.scan t with
        | .ok found => matched.Sublist found
        | .error _ => matched = []) ∧
      (∀ m ∈ executed, m.depth ≤ maxNestedInstructions) ∧
      ∀ n, result = .error (.template (.instruction (.tooDeep n))) →
        ∃ found, Span.scan t = .ok found ∧ ∃ s ∈ found, maxNestedInstructions ≤ s.depth := by
  obtain ⟨reached, below, same⟩ := resolve_eq c t start
  obtain ⟨executed, matched, trace, steps, sites, sorted, among, allowed, deep⟩ :=
    Resolve.text_counts c t start
  rw [same]
  refine ⟨rfl, below, executed, matched, trace, steps, sites, sorted, among, allowed, ?_⟩
  intro n refused
  obtain ⟨s, hs, nested⟩ := deep n (resolve_error refused)
  cases scanned : Span.scan t with
  | ok found =>
    rw [scanned] at among
    exact ⟨found, rfl, s, among.subset hs, nested⟩
  | error fault =>
    rw [scanned] at among
    rw [show matched = [] from among] at hs
    cases hs

end Descent

end ChatCommands
