import ChatCommands.Proofs.Resolution.Cap
import ChatCommands.Proofs.Resolution.Course

/-!
What holds whenever an instruction is about to be executed, and when a resolution is over.

The step limit is passed by one at most, and then the resolution ends. The effects are sound, and
they have only been added to.
-/

namespace ChatCommands

/-- A boundary between instructions: how many have been counted, and the effects. -/
structure Boundary where
  steps : Int
  effects : Effects

/-- The boundaries of a run that began with the given effects: its start, each moment at which an
instruction is counted, and its end. -/
def Run.boundaries (r : Run) (first : Effects) : List Boundary :=
  ⟨0, first⟩ :: r.trace.mapIdx (fun k m => ⟨k + 1, m.effects⟩) ++ [⟨r.steps, r.effects⟩]

namespace Run

variable {r : Run} {first : Effects}

theorem boundaries_effects :
    (r.boundaries first).map Boundary.effects =
      first :: r.trace.map Moment.effects ++ [r.effects] := by
  have moments : (r.trace.mapIdx fun k m => (⟨k + 1, m.effects⟩ : Boundary)).map Boundary.effects =
      r.trace.map Moment.effects := by
    apply List.ext_getElem <;> simp
  rw [boundaries, List.map_append, List.map_cons, moments]
  rfl

theorem boundaries_steps (whole : r.steps = r.trace.length) {b : Boundary}
    (h : b ∈ r.boundaries first) : b.steps ≤ r.steps := by
  rw [boundaries, List.mem_append, List.mem_cons, List.mem_singleton, List.mem_mapIdx] at h
  rcases h with (rfl | ⟨k, inside, rfl⟩) | rfl
  · exact whole ▸ Int.natCast_nonneg _
  · dsimp only
    omega
  · exact Int.le_refl _

/-- Where an instruction was the last thing to happen, its moment and the end are one boundary. -/
theorem boundaries_last {before : List Moment} {last : Moment} (trace : r.trace = before ++ [last])
    (steps : r.steps = r.trace.length) (ended : r.effects = last.effects) {b : Boundary}
    (h : b ∈ r.boundaries first) (late : r.steps ≤ b.steps) : b = ⟨r.steps, r.effects⟩ := by
  rw [trace, List.length_append, List.length_singleton] at steps
  rw [boundaries, trace, List.mem_append, List.mem_cons, List.mem_singleton, List.mem_mapIdx] at h
  rcases h with (rfl | ⟨k, inside, rfl⟩) | rfl
  · dsimp only at late
    omega
  · rw [List.length_append, List.length_singleton] at inside
    dsimp only at late
    have latest : k = before.length := by omega
    subst latest
    rw [List.getElem_concat_length rfl, ended, steps]
    rfl
  · rfl

end Run

/-- The limit is passed by one at most, and then by the last instruction counted. -/
theorem Resolve.text_within (c : Context) (levels : Nat) (t : Text) (effects : Effects) :
    let short := (text c levels t).outcome (.start effects)
    short.2.steps ≤ max c.maxSteps 0 ∨
      short.2.steps = max c.maxSteps 0 + 1 ∧ (∃ e, short.1 = .error (.template (.limit e))) ∧
        ∃ before last, short.2.trace = before ++ [last] ∧ short.2.effects = last.effects := by
  intro short
  obtain ⟨counted, _, _, cases⟩ :=
    Curtails.text c (Int.lt_succ c.maxSteps) levels t (.start effects)
  rcases cases with ⟨finished, _⟩ | ⟨before, last, buffer, stopped, state, _⟩
  · exact .inl finished.1
  · change short.2 = _ at state
    rw [state]
    exact .inr ⟨rfl, ⟨_, stopped⟩, before, last, rfl, rfl⟩

/-- At every boundary the limit is passed by one at most, and only when the resolution ends in it.
There are few stickers, all of them of the server, only identifiers are assigned, and there was
something to draw from whenever something was drawn. From one boundary to the next followups,
stickers and draws are only added to. -/
theorem resolve_boundaries (c : Context) (t : Text) (rolls : List Nat)
    (transport : Option Transport) :
    let first : Effects := ⟨[], [], [], rolls, [], transport⟩
    let (result, last) := resolve c t (.start first)
    last.steps = last.trace.length ∧
    (∀ b ∈ last.boundaries first,
      b.steps ≤ max c.maxSteps 0 + 1 ∧
      (max c.maxSteps 0 < b.steps →
        b = ⟨last.steps, last.effects⟩ ∧ ∃ e, result = .error (.template (.limit e))) ∧
      b.effects.Sound c.snapshot.server) ∧
    (last.boundaries first).Pairwise fun b b' => b.effects.Extends b'.effects := by
  intro first
  obtain ⟨counted, trace, steps, sound, grown⟩ :=
    (Resolve.Orderly.text c maxNestedInstructions t (.start first)).1.boundaries
      (Effects.sound_fresh _ rolls transport)
  have within := Resolve.text_within c maxNestedInstructions t first
  rcases run : (Resolve.text c maxNestedInstructions t).outcome (.start first) with ⟨result, last⟩
  rw [run] at trace steps sound grown within
  have same : resolve c t (.start first) =
      (result.map fun body => ⟨body, last.effects.stickers, last.effects.followups⟩, last) := by
    rw [resolve, show StateT.run _ _ = _ from run]
  rw [same]
  have whole : last.steps = last.trace.length := by
    rw [trace, steps]
    simp [Run.start]
  have moments : (last.boundaries first).map Boundary.effects =
      first :: counted.map Moment.effects ++ [last.effects] := by
    rw [Run.boundaries_effects, trace]
    rfl
  refine ⟨whole, fun b hb => ?_, ?_⟩
  · have early := Run.boundaries_steps whole hb
    refine ⟨?_, fun late => ?_, sound _ (moments ▸ List.mem_map_of_mem hb)⟩
    · rcases within with few | ⟨passed, _⟩
      · exact early.trans (few.trans (Int.le_add_of_nonneg_right Int.one_nonneg))
      · exact passed ▸ early
    · rcases within with few | ⟨passed, ⟨e, limited⟩, before, moment, full, ended⟩
      · exact absurd (early.trans few) (Int.not_le.mpr late)
      · refine ⟨Run.boundaries_last full whole ended hb (passed ▸ late), e, ?_⟩
        change result = _ at limited
        rw [limited]
        rfl
  · apply List.pairwise_map.mp
    rw [moments]
    exact grown

/-- A limit below zero is passed by more than one. -/
theorem boundary_below_zero :
    ¬ ∀ (c : Context) (t : Text) (effects : Effects),
      (resolve c t (.start effects)).2.steps ≤ c.maxSteps + 1 := by
  intro claim
  have few := claim (Context.bare.capped (-1)) "\x7bset;a;1\x7d".toList ⟨[], [], [], [], [], none⟩
  have counted : (resolve (Context.bare.capped (-1)) "\x7bset;a;1\x7d".toList
      (.start ⟨[], [], [], [], [], none⟩)).2.steps = 1 := by cbv
  rw [counted] at few
  exact absurd few (by decide)

end ChatCommands
