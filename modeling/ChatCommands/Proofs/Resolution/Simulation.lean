import ChatCommands.Proofs.Resolution.Agreement

/-!
Resolutions that run beside each other.

An instruction is written once for all computations that can fail and that have the state of a
resolution. So two of them that are related step by step are related instruction by instruction, as
soon as what they resolve is.
-/

namespace ChatCommands

namespace Resolve

variable {m : Type → Type} [Monad m] [MonadExceptOf Fault m] [MonadStateOf Run m]

/-- A relation to other computations that each single step has to itself, and that is kept where
computations follow one another. -/
structure Simulation (m : Type → Type) [Monad m] [MonadExceptOf Fault m]
    [MonadStateOf Run m] where
  rel {α : Type} : Resolve α → m α → Prop
  pure {α : Type} (a : α) : rel (pure a) (pure a)
  throw {α : Type} (f : Fault) : rel (throw f : Resolve α) (throw f)
  bind {α β : Type} {x : Resolve α} {y : m α} {f : α → Resolve β} {g : α → m β} : rel x y →
    (∀ a, rel (f a) (g a)) → rel (x >>= f) (y >>= g)
  effects : rel effects effects
  setEffects (e : Effects) : rel (setEffects e) (setEffects e)
  scope (c : Context) : rel (scope c) (scope c)
  count (c : Context) (depth : Nat) (i : Instruction) (a : Arena) :
    rel (count c depth i a) (count c depth i a)

namespace Simulation

variable (s : Simulation m) {α : Type} {inner : Text → Resolve Text} {inner' : Text → m Text}

theorem stop (e : TemplateError) : s.rel (Resolve.stop e : Resolve α) (Resolve.stop e) :=
  s.throw _

theorem refuse (e : InstructionError) : s.rel (Resolve.refuse e : Resolve α) (Resolve.refuse e) :=
  s.throw _

theorem ofGate (r : Except TemplateError α) : s.rel (Resolve.ofGate r) (Resolve.ofGate r) := by
  cases r with
  | ok a => exact s.pure a
  | error e => exact s.stop e

theorem ofCrash (r : Except Crash α) : s.rel (Resolve.ofCrash r) (Resolve.ofCrash r) := by
  cases r with
  | ok a => exact s.pure a
  | error e => exact s.throw _

/-- The effects are changed to what they determine. -/
theorem change (f : Effects → Effects) (a : α) :
    s.rel (Resolve.effects >>= fun e => Resolve.setEffects (f e) >>= fun _ => Pure.pure a)
      (Resolve.effects >>= fun e => Resolve.setEffects (f e) >>= fun _ => Pure.pure a) := by
  apply s.bind s.effects
  intro e
  exact s.bind (s.setEffects _) fun _ => s.pure a

theorem unlessRefused {p : Prop} [Decidable p] {e : InstructionError} {f : PUnit → Resolve α}
    {g : PUnit → m α} (h : ∀ u, s.rel (f u) (g u)) :
    s.rel (if p then Resolve.refuse e >>= f else f ⟨⟩)
      (if p then Resolve.refuse e >>= g else g ⟨⟩) := by
  split
  · exact s.bind (s.refuse e) h
  · exact h ⟨⟩

theorem lookUp (c : Context) (path : Text) :
    s.rel (Resolve.lookUp c path) (Resolve.lookUp c path) := by
  apply s.bind (s.scope c)
  intro seen
  apply s.bind (s.ofCrash _)
  intro found
  cases found with
  | none => exact s.pure none
  | some v => exact s.bind (s.ofCrash _) fun _ => s.pure _

theorem fetch (url method : Text) (body : Json) :
    s.rel (Resolve.fetch url method body) (Resolve.fetch url method body) := by
  apply s.bind s.effects
  intro e
  cases e.transport with
  | none => exact s.refuse _
  | some t =>
    dsimp only
    generalize t.fetch url method Transport.defaultHeaders body = reply
    obtain ⟨result, sent⟩ := reply
    apply s.bind (s.setEffects _)
    intro _
    cases result with
    | ok r => exact s.pure r
    | error e => exact s.stop _

theorem dataOf (url : Text) (r : Response) :
    s.rel (Resolve.dataOf url r) (Resolve.dataOf url r) := by
  unfold Resolve.dataOf
  split
  · split
    · exact s.pure _
    · exact s.stop _
    · exact s.throw _
  · exact s.stop _

section Handling

variable (nested : ∀ t, s.rel (inner t) (inner' t))
include nested

theorem argument (raw : Text) :
    s.rel (Resolve.argument inner raw) (Resolve.argument inner' raw) := by
  unfold Resolve.argument
  split
  · exact nested raw
  · exact s.pure raw

theorem nameArgument (raw : Text) :
    s.rel (Resolve.nameArgument inner raw) (Resolve.nameArgument inner' raw) := by
  apply s.bind (s.argument nested raw)
  intro t
  dsimp only
  split
  · exact s.pure _
  · exact s.refuse _

theorem set (i : Instruction) : s.rel (Resolve.set inner i) (Resolve.set inner' i) := by
  unfold Resolve.set
  cases Resolve.setParts i with
  | error e => exact s.refuse e
  | ok parts =>
    apply s.bind (s.nameArgument nested _)
    intro name
    apply s.bind (s.argument nested _)
    intro value
    exact s.change _ []

theorem bound (i : Instruction) (raw : Text) :
    s.rel (Resolve.bound inner i raw) (Resolve.bound inner' i raw) := by
  apply s.bind (s.argument nested raw)
  intro t
  dsimp only
  cases Numeral.readInt (Text.strip t) with
  | some n => exact s.pure n
  | none => exact s.refuse _

theorem random (i : Instruction) : s.rel (Resolve.random inner i) (Resolve.random inner' i) := by
  unfold Resolve.random
  split
  · apply s.bind (s.bound nested i _)
    intro a
    apply s.bind (s.bound nested i _)
    intro b
    apply s.bind s.effects
    intro e
    exact s.bind (s.setEffects _) fun _ => s.pure _
  · exact s.refuse _

theorem choose (i : Instruction) : s.rel (Resolve.choose inner i) (Resolve.choose inner' i) := by
  unfold Resolve.choose
  split
  · exact s.pure _
  · apply s.bind s.effects
    intro e
    exact s.bind (s.setEffects _) fun _ => s.argument nested _

theorem followup (i : Instruction) :
    s.rel (Resolve.followup inner i) (Resolve.followup inner' i) :=
  s.bind (s.argument nested _) fun _ => s.change _ []

theorem urlArgument (raw : Text) :
    s.rel (Resolve.urlArgument inner raw) (Resolve.urlArgument inner' raw) := by
  apply s.bind (s.argument nested raw)
  intro t
  apply s.bind (s.ofCrash _)
  intro scheme
  split
  · exact s.pure _
  · exact s.refuse _

theorem methodArgument (raw : Option Text) :
    s.rel (Resolve.methodArgument inner raw) (Resolve.methodArgument inner' raw) := by
  cases raw with
  | none => exact s.pure _
  | some raw =>
    unfold Resolve.methodArgument
    dsimp only
    split
    · exact s.pure _
    · exact s.bind (s.argument nested raw) fun _ => s.pure _

theorem bodyArgument (i : Instruction) (url : Text) :
    s.rel (Resolve.bodyArgument inner i url) (Resolve.bodyArgument inner' i url) := by
  unfold Resolve.bodyArgument
  split
  · exact s.pure _
  · apply s.bind (s.argument nested _)
    intro t
    dsimp only
    split
    · exact s.pure _
    · exact s.refuse _
    · exact s.throw _

theorem webrequest (c : Context) (i : Instruction) :
    s.rel (Resolve.webrequest c inner i) (Resolve.webrequest c inner' i) := by
  rw [Resolve.webrequest, Resolve.webrequest]
  apply s.unlessRefused
  intro _
  dsimp only
  split
  · apply s.bind (s.nameArgument nested _)
    intro name
    apply s.bind (s.urlArgument nested _)
    intro url
    apply s.bind (s.methodArgument nested _)
    intro method
    apply s.bind (s.bodyArgument nested i url)
    intro body
    apply s.bind (s.fetch _ _ _)
    intro response
    apply s.bind (s.dataOf _ _)
    intro data
    exact s.change _ []
  · exact s.refuse _

theorem sticker (c : Context) (i : Instruction) :
    s.rel (Resolve.sticker c inner i) (Resolve.sticker c inner' i) := by
  apply s.bind (s.argument nested _)
  intro t
  dsimp only
  split
  · exact s.stop _
  · apply s.bind s.effects
    intro e
    apply s.unlessRefused
    intro _
    exact s.bind (s.setEffects _) fun _ => s.pure _

theorem condition (c : Context) (i : Instruction) :
    s.rel (Resolve.condition c inner i) (Resolve.condition c inner' i) := by
  apply s.bind (s.argument nested _)
  intro t
  exact s.bind (s.scope c) fun _ => s.ofCrash _

theorem perform (c : Context) (v : Verb) (i : Instruction) :
    s.rel (Resolve.perform c inner v i) (Resolve.perform c inner' v i) := by
  cases v with
  | set => exact s.set nested i
  | random => exact s.random nested i
  | choose => exact s.choose nested i
  | followup => exact s.followup nested i
  | webrequest => exact s.webrequest nested c i
  | sticker => exact s.sticker nested c i
  | var | reference =>
    exact s.bind (s.argument nested _) fun _ => s.bind (s.lookUp c _) fun _ => s.pure _
  | require | exclude =>
    exact s.bind (s.argument nested _) fun _ => s.bind (s.ofGate _) fun _ => s.pure _
  | condition | marker => exact s.pure _

end Handling

end Simulation

end Resolve

end ChatCommands
