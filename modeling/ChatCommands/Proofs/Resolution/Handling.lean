import ChatCommands.Proofs.Resolution.Local
import ChatCommands.Proofs.Resolution.Structured

/-!
What an instruction does by itself, and which relations between two resolutions it keeps.

Between its arguments an instruction counts nothing and does not meet the step limit. A relation
that holds between such a computation and itself, and that is kept where computations follow one
another, holds of whole instructions and templates once it holds of what they resolve.
-/

namespace ChatCommands

namespace Resolve

variable {α β : Type} {crashes : Crash → Prop}

/-- A relation between resolutions that local computations have to themselves, and that is kept
where resolutions follow one another. -/
structure Lifting (crashes : Crash → Prop) where
  rel {α : Type} : Resolve α → Resolve α → Prop
  refl {α : Type} {x : Resolve α} : Local crashes x → rel x x
  bind {α β : Type} {x y : Resolve α} {f g : α → Resolve β} : rel x y →
    (∀ a, rel (f a) (g a)) → rel (x >>= f) (y >>= g)

namespace Lifting

variable (l : Lifting crashes) {inner inner' : Text → Resolve Text}

theorem map {x y : Resolve α} (h : l.rel x y) (f : α → β) :
    l.rel (x >>= fun a => Pure.pure (f a)) (y >>= fun a => Pure.pure (f a)) :=
  l.bind h fun _ => l.refl (.pure _)

section Handling

variable (nested : ∀ t, l.rel (inner t) (inner' t))
include nested

theorem argument (raw : Text) :
    l.rel (Resolve.argument inner raw) (Resolve.argument inner' raw) := by
  unfold Resolve.argument
  split
  · exact nested raw
  · exact l.refl (.pure raw)

theorem nameArgument (raw : Text) :
    l.rel (Resolve.nameArgument inner raw) (Resolve.nameArgument inner' raw) := by
  refine l.bind (l.argument nested raw) fun t => l.refl ?_
  dsimp only
  split
  · exact .pure _
  · exact .refuse _

theorem set (i : Instruction) : l.rel (Resolve.set inner i) (Resolve.set inner' i) := by
  unfold Resolve.set
  split
  · exact l.refl (.refuse _)
  · refine l.bind (l.nameArgument nested _) fun name => l.bind (l.argument nested _) fun value => ?_
    exact l.refl (.read fun _ => LocalAt.write (.assign · name (.text value)) rfl (.pure _))

theorem bound (i : Instruction) (raw : Text) :
    l.rel (Resolve.bound inner i raw) (Resolve.bound inner' i raw) := by
  refine l.bind (l.argument nested raw) fun t => l.refl ?_
  dsimp only
  split
  · exact .pure _
  · exact .refuse _

theorem random (i : Instruction) : l.rel (Resolve.random inner i) (Resolve.random inner' i) := by
  unfold Resolve.random
  split
  · refine l.bind (l.bound nested i _) fun a => l.bind (l.bound nested i _) fun b => ?_
    refine l.refl (.read fun start => ?_)
    by_cases order : b < a
    · rw [if_pos order]
      exact LocalAt.write id rfl (.pure _)
    · rw [if_neg order]
      exact LocalAt.write id rfl (.pure _)
  · exact l.refl (.refuse _)

theorem choose (i : Instruction) : l.rel (Resolve.choose inner i) (Resolve.choose inner' i) := by
  have pick : Local crashes (do
      let e ← effects
      setEffects (e.drawIndex i.args.length).2
      return (e.drawIndex i.args.length).1) :=
    .read fun _ => LocalAt.write id rfl (.pure _)
  unfold Resolve.choose
  split
  · exact l.refl (.pure _)
  · have all := l.bind (l.refl pick) fun n => l.argument nested (i.args[n]?.getD [])
    simpa only [bind_assoc, pure_bind] using all

theorem followup (i : Instruction) :
    l.rel (Resolve.followup inner i) (Resolve.followup inner' i) :=
  l.bind (l.argument nested _) fun _ => l.refl (.read fun _ => LocalAt.write id rfl (.pure _))

theorem sticker {c c' : Context} (server : c.snapshot.server = c'.snapshot.server)
    (i : Instruction) : l.rel (Resolve.sticker c inner i) (Resolve.sticker c' inner' i) := by
  refine l.bind (l.argument nested _) fun t => ?_
  rw [server]
  refine l.refl ?_
  dsimp only
  split
  · exact .stop trivial
  · refine .read fun start => ?_
    split
    · exact Local.refuse _ start
    · exact LocalAt.write id rfl (.pure _)

theorem methodArgument (raw : Option Text) :
    l.rel (Resolve.methodArgument inner raw) (Resolve.methodArgument inner' raw) := by
  cases raw with
  | none => exact l.refl (.pure _)
  | some raw =>
    unfold Resolve.methodArgument
    dsimp only
    split
    · exact l.refl (.pure _)
    · exact l.map (l.argument nested raw) _

section Snapshot

variable {c c' : Context} (same : c.snapshot = c'.snapshot)
include same

theorem require (i : Instruction) :
    l.rel (Resolve.require c inner i) (Resolve.require c' inner' i) := by
  refine l.bind (l.argument nested _) fun t => ?_
  rw [same]
  exact l.refl (.bind (.require t _) fun _ => .pure _)

theorem exclude (i : Instruction) :
    l.rel (Resolve.exclude c inner i) (Resolve.exclude c' inner' i) := by
  refine l.bind (l.argument nested _) fun t => ?_
  rw [same]
  exact l.refl (.bind (.exclude t _) fun _ => .pure _)

end Snapshot

section Crashing

variable (all : ∀ e, crashes e)
include all

theorem urlArgument (raw : Text) :
    l.rel (Resolve.urlArgument inner raw) (Resolve.urlArgument inner' raw) := by
  refine l.bind (l.argument nested raw) fun t => l.refl ?_
  refine Local.bind (.ofCrash fun e _ => all e) fun scheme => ?_
  split
  · exact .pure _
  · exact .refuse _

theorem bodyArgument (i : Instruction) (url : Text) :
    l.rel (Resolve.bodyArgument inner i url) (Resolve.bodyArgument inner' i url) := by
  unfold Resolve.bodyArgument
  split
  · exact l.refl (.pure _)
  · refine l.bind (l.argument nested _) fun t => l.refl ?_
    dsimp only
    split
    · exact .pure _
    · exact .refuse _
    · exact .throw (all _)

theorem webrequest (fetched : ∀ url method body, l.rel (fetch url method body)
      (fetch url method body)) {c c' : Context} (enabled : c.requestsEnabled = c'.requestsEnabled)
    (i : Instruction) :
    l.rel (Resolve.webrequest c inner i) (Resolve.webrequest c' inner' i) := by
  rw [Resolve.webrequest, Resolve.webrequest, enabled]
  by_cases disabled : (!c'.requestsEnabled) = true
  · rw [if_pos disabled, if_pos disabled]
    exact l.refl (.refuse _)
  rw [if_neg disabled, if_neg disabled]
  split
  · refine l.bind (l.nameArgument nested _) fun name => ?_
    refine l.bind (l.urlArgument nested all _) fun url => ?_
    refine l.bind (l.methodArgument nested _) fun method => ?_
    refine l.bind (l.bodyArgument nested all i url) fun body => ?_
    refine l.bind (fetched url method body) fun response => l.refl ?_
    refine Local.bind (.dataOf (all _)) fun data => ?_
    exact .read fun _ => LocalAt.write (Effects.Plain.assign · name data) rfl (.pure _)
  · exact l.refl (.refuse _)

section Snapshot

variable {c c' : Context} (same : c.snapshot = c'.snapshot)
include same

/-- A path is looked up alike where the snapshots are the same. -/
theorem lookUp (raw : Text) (f : Text → Option Text → Text) :
    l.rel (do
        let path ← Resolve.argument inner raw
        return f path (← Resolve.lookUp c path))
      (do
        let path ← Resolve.argument inner' raw
        return f path (← Resolve.lookUp c' path)) := by
  refine l.bind (l.argument nested raw) fun path => ?_
  have alike : (Resolve.lookUp c path : Resolve _) = Resolve.lookUp c' path := by
    unfold Resolve.lookUp scope
    rw [same]
  rw [alike]
  exact l.refl (.bind (.lookUp all) fun _ => .pure _)

theorem condition (i : Instruction) :
    l.rel (Resolve.condition c inner i) (Resolve.condition c' inner' i) := by
  refine l.bind (l.argument nested _) fun t => ?_
  unfold scope
  rw [same]
  exact l.refl (.bind (.scope c') fun s => .ofCrash fun e _ => all e)

end Snapshot

end Crashing

end Handling

/-- Whether two ways to execute what texts write are related, each together with the count of it. -/
structure Executes (c c' : Context) (inner inner' : Text → Resolve Text) (depth : Nat) : Prop where
  perform (t : Text) (a : Arena) :
    let i := Instruction.decode t
    l.rel (count c depth i a >>= fun _ => Resolve.perform c inner (Verb.ofKeyword i.keyword) i)
      (count c' depth i a >>= fun _ => Resolve.perform c' inner' (Verb.ofKeyword i.keyword) i)
  condition (t : Text) (a : Arena) :
    let i := Instruction.decode t
    Verb.ofKeyword i.keyword = .condition →
      l.rel (count c depth i a >>= fun _ => Resolve.condition c inner i)
        (count c' depth i a >>= fun _ => Resolve.condition c' inner' i)

variable {c c' : Context} {depth : Nat}

/-- An instruction that reads no expression, no gate and not the web does the same everywhere. -/
theorem perform (nested : ∀ t, l.rel (inner t) (inner' t))
    (server : c.snapshot.server = c'.snapshot.server) {i : Instruction} {a : Arena}
    (counted : l.rel (count c depth i a) (count c' depth i a))
    (others : ∀ v ∈ [Verb.var, .require, .exclude, .webrequest, .reference],
      Verb.ofKeyword i.keyword = v → l.rel
        (count c depth i a >>= fun _ => Resolve.perform c inner v i)
        (count c' depth i a >>= fun _ => Resolve.perform c' inner' v i)) :
    l.rel (count c depth i a >>= fun _ => Resolve.perform c inner (Verb.ofKeyword i.keyword) i)
      (count c' depth i a >>= fun _ => Resolve.perform c' inner' (Verb.ofKeyword i.keyword) i) := by
  cases verb : Verb.ofKeyword i.keyword with
  | set => exact l.bind counted fun _ => l.set nested i
  | random => exact l.bind counted fun _ => l.random nested i
  | choose => exact l.bind counted fun _ => l.choose nested i
  | followup => exact l.bind counted fun _ => l.followup nested i
  | sticker => exact l.bind counted fun _ => l.sticker nested server i
  | condition | marker => exact l.bind counted fun _ => l.refl (.pure _)
  | var | require | exclude | webrequest | reference => exact others _ (by simp) verb

theorem walk (steps : l.Executes c c' inner inner' depth) (lost : crashes .missingKey)
    (blocks : List Block) (rs : List Region) (a : Arena) :
    l.rel (Resolve.walk c inner depth blocks rs a) (Resolve.walk c' inner' depth blocks rs a) := by
  induction rs generalizing a with
  | nil => exact l.refl (.pure a)
  | cons r rest ih =>
    by_cases void : a.isVoid r.index = true
    · rw [Resolve.walk, Resolve.walk, if_pos void, if_pos void]
      exact ih a
    have live : a.isVoid r.index = false := Bool.eq_false_iff.mpr void
    by_cases opens : Verb.ofKeyword (Instruction.decode (a.regionText r)).keyword = .condition
    · rw [Resolve.walk, Resolve.walk, if_neg void, if_neg void]
      simp only [opens]
      rw [← bind_assoc, ← bind_assoc]
      refine l.bind (steps.condition _ a opens) fun holds => ?_
      split
      · exact ih _
      · exact l.refl (.throw lost)
    · rw [walk_live live opens, walk_live live opens]
      have replaced := l.bind (steps.perform (a.regionText r) a) fun new =>
        ih (a.replace r new).2
      rwa [bind_assoc, bind_assoc] at replaced

theorem level (steps : l.Executes c c' inner inner' depth) (lost : crashes .missingKey)
    (refused : ∀ e, l.rel (stop (.parse e) : Resolve Text) (stop (.parse e))) (t : Text) :
    l.rel (Resolve.level c inner depth t) (Resolve.level c' inner' depth t) := by
  unfold Resolve.level
  split
  · exact refused _
  · exact l.map (l.walk steps lost _ _ _) _

theorem script (steps : l.Executes c c' inner inner' depth) {s : Script} (fits : s.Fits) :
    l.rel (s.run c inner depth) (s.run c' inner' depth) := by
  have piece (p : Piece) : l.rel (p.run c inner depth) (p.run c' inner' depth) := by
    cases p with
    | plain u => exact l.refl (.pure _)
    | span body => exact steps.perform _ _
  have test {p : Piece} (opens : p.marker? = some .opens) :
      l.rel (p.test c inner depth) (p.test c' inner' depth) := by
    cases p with
    | plain u => cases opens
    | span body => exact steps.condition _ _ (Verb.ofKeyword_eq_condition.mpr opens)
  induction s with
  | done => exact l.refl (.pure _)
  | leaf p next ih => exact l.bind (piece p) fun shown => l.map (ih fits.2) _
  | ifThen opener yes closer next ih_yes ih =>
    obtain ⟨opens, hy, _, hn⟩ := fits
    refine l.bind (test opens) fun holds => l.bind ?_ fun shown => l.map (ih hn) _
    cases holds
    · exact l.refl (.pure _)
    · exact ih_yes hy
  | ifElse opener yes divider no closer next ih_yes ih_no ih =>
    obtain ⟨opens, hy, _, hno, _, hn⟩ := fits
    refine l.bind (test opens) fun holds => l.bind ?_ fun shown => l.map (ih hn) _
    cases holds
    · exact ih_no hno
    · exact ih_yes hy

end Lifting

end Resolve

end ChatCommands
