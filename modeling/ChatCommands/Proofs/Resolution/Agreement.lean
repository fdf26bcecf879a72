import ChatCommands.Resolution.Basic

/-!
When two computations of a resolution have the same outcome.

From every state both leave the same state and give related values or the same fault. The error
for the step limit shows the text that is being resolved; there two computations may differ.
-/

namespace ChatCommands

/-- A fault without the text that the error for the step limit shows. -/
def Fault.withoutBuffer : Fault → Fault
  | .template (.limit e) => .template (.limit { e with buffer := [] })
  | f => f

theorem Fault.eq_of_withoutBuffer {f g : Fault} (whole : ∀ e, f ≠ .template (.limit e))
    (same : f.withoutBuffer = g.withoutBuffer) : f = g := by
  unfold withoutBuffer at same
  split at same
  · exact absurd rfl (whole _)
  · split at same
    · exact absurd same (whole _)
    · exact same

namespace Resolve

variable {α β γ δ : Type}

def outcome (x : Resolve α) (start : Run) : Except Fault α × Run :=
  x.run.run start

@[simp] theorem outcome_pure (a : α) (start : Run) :
    (pure a : Resolve α).outcome start = (.ok a, start) :=
  rfl

@[simp] theorem outcome_throw (e : Fault) (start : Run) :
    (throw e : Resolve α).outcome start = (.error e, start) :=
  rfl

theorem outcome_bind (x : Resolve α) (f : α → Resolve β) (start : Run) :
    (x >>= f).outcome start = match x.outcome start with
      | (.ok a, next) => (f a).outcome next
      | (.error e, next) => (.error e, next) := by
  simp only [outcome, bind, ExceptT.bind, ExceptT.run, ExceptT.mk, StateT.bind, StateT.run]
  rcases x start with ⟨_ | _, next⟩ <;> rfl

theorem outcome_bind_ok {x : Resolve α} {f : α → Resolve β} {start next : Run} {a : α}
    (h : x.outcome start = (.ok a, next)) : (x >>= f).outcome start = (f a).outcome next := by
  rw [outcome_bind, h]

theorem outcome_bind_eq_ok {x : Resolve α} {f : α → Resolve β} {start final : Run} {b : β} :
    (x >>= f).outcome start = (.ok b, final) ↔
      ∃ a next, x.outcome start = (.ok a, next) ∧ (f a).outcome next = (.ok b, final) := by
  constructor
  · intro h
    rw [outcome_bind] at h
    rcases hx : x.outcome start with ⟨e | a, next⟩
    · rw [hx] at h
      cases h
    · rw [hx] at h
      exact ⟨a, next, rfl, h⟩
  · rintro ⟨a, next, first, second⟩
    rw [outcome_bind_ok first, second]

theorem outcome_scope (c : Context) (f : Scope → Resolve α) (start : Run) :
    (scope c >>= f).outcome start = (f (start.scope c.snapshot)).outcome start := rfl

/-- Whether two results are related values or the same fault. -/
def Matches (related : α → β → Prop) : Except Fault α → Except Fault β → Prop
  | .ok a, .ok b => related a b
  | .error e, .error f => e.withoutBuffer = f.withoutBuffer
  | _, _ => False

/-- Whether two computations have the same outcome, up to a relation of the values they give. -/
def Agrees (related : α → β → Prop) (x : Resolve α) (y : Resolve β) : Prop :=
  ∀ start, Matches related (x.outcome start).1 (y.outcome start).1 ∧
    (x.outcome start).2 = (y.outcome start).2

/-- Whether two computations have the same outcome. -/
def Alike (x y : Resolve α) : Prop :=
  Agrees Eq x y

namespace Agrees

variable {related : α → β → Prop} {x : Resolve α} {y : Resolve β}

theorem pure {a : α} {b : β} (h : related a b) :
    Agrees related (pure a) (Pure.pure b) :=
  fun _ => ⟨h, rfl⟩

theorem mono {weaker : α → β → Prop} (h : Agrees related x y)
    (weaken : ∀ a b, related a b → weaker a b) : Agrees weaker x y := by
  intro start
  obtain ⟨result, state⟩ := h start
  refine ⟨?_, state⟩
  revert result
  cases (x.outcome start).1 <;> cases (y.outcome start).1 <;> simp only [Matches]
  · exact id
  · exact id
  · exact id
  · exact weaken _ _

theorem bind {next : γ → δ → Prop} (h : Agrees related x y) {f : α → Resolve γ}
    {g : β → Resolve δ} (rest : ∀ a b, related a b → Agrees next (f a) (g b)) :
    Agrees next (x >>= f) (y >>= g) := by
  intro start
  obtain ⟨result, state⟩ := h start
  rw [outcome_bind, outcome_bind]
  rcases hx : x.outcome start with ⟨e | a, left⟩ <;>
    rcases hy : y.outcome start with ⟨f | b, right⟩ <;>
    simp only [hx, hy, Matches] at result state
  · exact ⟨result, state⟩
  · subst state
    exact rest a b result left

theorem symm (h : Agrees related x y) : Agrees (fun b a => related a b) y x := by
  intro start
  obtain ⟨result, state⟩ := h start
  refine ⟨?_, state.symm⟩
  revert result
  cases (x.outcome start).1 <;> cases (y.outcome start).1 <;> simp only [Matches]
  · exact Eq.symm
  · exact id
  · exact id
  · exact id

theorem trans {next : β → γ → Prop} {z : Resolve γ} (first : Agrees related x y)
    (second : Agrees next y z) : Agrees (fun a c => ∃ b, related a b ∧ next b c) x z := by
  intro start
  obtain ⟨result, state⟩ := first start
  obtain ⟨result', state'⟩ := second start
  refine ⟨?_, state.trans state'⟩
  revert result result'
  cases (x.outcome start).1 <;> cases (y.outcome start).1 <;> cases (z.outcome start).1 <;>
    simp only [Matches, false_implies, implies_true]
  · exact Eq.trans
  · exact fun h h' => ⟨_, h, h'⟩

end Agrees

namespace Alike

theorem refl (x : Resolve α) : Alike x x := by
  intro start
  refine ⟨?_, rfl⟩
  cases (x.outcome start).1 <;> rfl

theorem symm {x y : Resolve α} (h : Alike x y) : Alike y x :=
  (Agrees.symm h).mono fun _ _ => Eq.symm

theorem trans {x y z : Resolve α} (h : Alike x y) (h' : Alike y z) : Alike x z :=
  (Agrees.trans h h').mono fun _ _ ⟨_, hab, hbc⟩ => hab.trans hbc

theorem bind {x y : Resolve α} {f g : α → Resolve β} (h : Alike x y)
    (rest : ∀ a, Alike (f a) (g a)) : Alike (x >>= f) (y >>= g) :=
  Agrees.bind h fun a _ same => same ▸ rest a

theorem ok {x y : Resolve α} (h : Alike x y) {start next : Run} {a : α}
    (given : y.outcome start = (.ok a, next)) : x.outcome start = (.ok a, next) := by
  obtain ⟨same, state⟩ := h start
  rw [given] at same state
  rcases result : x.outcome start with ⟨e | b, final⟩
  · rw [result] at same
    exact same.elim
  · rw [result] at same state
    cases same
    cases state
    rfl

theorem error {x y : Resolve α} (h : Alike x y) {start : Run} {f : Fault}
    (whole : ∀ e, f ≠ .template (.limit e)) (error : (x.outcome start).1 = .error f) :
    (y.outcome start).1 = .error f := by
  have same := (h start).1
  rw [error] at same
  cases result : (y.outcome start).1 with
  | error g =>
    rw [result] at same
    rw [Fault.eq_of_withoutBuffer whole same]
  | ok a =>
    rw [result] at same
    exact same.elim

end Alike

theorem count_alike (c : Context) (depth : Nat) (i : Instruction) (a b : Arena) :
    Alike (count c depth i a) (count c depth i b) := by
  refine Alike.bind (.refl _) fun _ => Alike.bind (.refl _) fun r => ?_
  split
  · exact fun _ => ⟨rfl, rfl⟩
  · exact .refl _

end Resolve

end ChatCommands
