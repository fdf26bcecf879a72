import ChatCommands.Proofs.Result
import ChatCommands.Proofs.Store.KeyMap
import ChatCommands.Proofs.Store.Refusal

/-!
Orders that are carried out at the same time.

An order checks and changes the memory in one part, and another part writes the file. Whatever
comes in between, the memory is what the orders would have made of it one after the other. The file
may be behind it as long as an order is pending, and no longer.
-/

namespace ChatCommands

/-- The keeper after some orders, each carried out as a whole before the next. -/
def Keeper.serve (k : Keeper) (orders : List Work.Order) : Keeper :=
  orders.foldl (fun k o => (o.whole.outcome k).2) k

theorem Keeper.eq_of_parts {k k' : Keeper} (contents : k.contents = k'.contents)
    (file : k.store.file = k'.store.file) (supply : k.supply = k'.supply) : k = k' := by
  obtain ⟨⟨_, _⟩, _⟩ := k
  obtain ⟨⟨_, _⟩, _⟩ := k'
  cases contents
  cases file
  cases supply
  rfl

namespace Work

namespace Order

/-- The call that an order is, with the id and the time that are next. -/
def call (supply : Supply) : Order → Store.Call
  | add g name response createdBy => .add g name response createdBy supply.nextId supply.now
  | edit g identifier response => .edit g identifier response supply.now
  | remove g identifier => .remove g identifier
  | setPrefix g own => .setPrefix g own

theorem plan_change {o : Order} {s t : Contents} {supply : Supply} {made : Product}
    (planned : o.plan s supply = .ok (made, t)) : s.Change (o.call supply) t := by
  have change := Contents.answer_change s (o.call supply)
  cases o <;>
  · obtain ⟨⟨a, t'⟩, made, same⟩ := map_eq_ok.mp planned
    cases same
    simpa [call, Contents.answer, made, Store.settle] using change

end Order

namespace Desk

/-- What holds at a desk that was opened with a keeper. -/
structure Kept (k : Keeper) (d : Desk) : Prop where
  keyed : d.keeper.contents.Keyed
  contents : d.keeper.contents = (k.serve d.made).contents
  supply : d.keeper.supply = (k.serve d.made).supply
  written : d.made ≠ [] → (k.serve d.made).store.file = some (k.serve d.made).contents.fileText
  settled : d.pending = [] → d.keeper.store.file = (k.serve d.made).store.file
  under : d.pending ≠ [] → d.made ≠ []

theorem kept_idle {k : Keeper} (keyed : k.contents.Keyed) : (idle k).Kept k where
  keyed := keyed
  contents := rfl
  supply := rfl
  written none := absurd rfl none
  settled _ := rfl
  under none := absurd rfl none

theorem Kept.start {k : Keeper} {d : Desk} (h : d.Kept k) (o : Order) :
    (d.move (.start o)).Kept k := by
  dsimp only [move]
  rw [Order.start_outcome]
  cases planned : o.plan d.keeper.contents d.keeper.supply with
  | error e => exact h
  | ok r =>
    obtain ⟨made, s⟩ := r
    -- The order finds the memory and the supply that it would find after the orders before it.
    have served : k.serve (d.made ++ [o]) =
        ⟨Store.save ⟨s, (k.serve d.made).store.file⟩, o.spent d.keeper.supply⟩ := by
      rw [Keeper.serve, List.foldl_append, ← Keeper.serve]
      change (o.whole.outcome (k.serve d.made)).2 = _
      rw [Order.whole_outcome, ← h.contents, ← h.supply, planned]
    refine ⟨h.keyed.change (Order.plan_change planned), ?_, ?_, ?_, ?_, ?_⟩
    · change s = (k.serve (d.made ++ [o])).contents
      rw [served]
      rfl
    · change o.spent d.keeper.supply = (k.serve (d.made ++ [o])).supply
      rw [served]
    · intro _
      change (k.serve (d.made ++ [o])).store.file = some (k.serve (d.made ++ [o])).contents.fileText
      rw [served]
      rfl
    · exact fun none => absurd none (List.append_ne_nil_of_right_ne_nil _ (List.cons_ne_nil _ _))
    · exact fun _ => List.append_ne_nil_of_right_ne_nil _ (List.cons_ne_nil _ _)

theorem Kept.save {k : Keeper} {d : Desk} (h : d.Kept k) (i : Nat) :
    (d.move (.save i)).Kept k := by
  dsimp only [move]
  split
  · rename_i inside
    -- Only an order that is pending writes, so there has been a change.
    have some : d.made ≠ [] := h.under (List.ne_nil_of_length_pos (by omega))
    refine ⟨h.keyed, h.contents, h.supply, h.written, fun _ => ?_, fun _ => some⟩
    rw [h.written some, ← h.contents]
    rfl
  · exact h

theorem Kept.run {k : Keeper} {d : Desk} (h : d.Kept k) (moves : List Move) : (d.run moves).Kept k := by
  induction moves generalizing d with
  | nil => exact h
  | cons m rest ih =>
    cases m with
    | start o => exact ih (h.start o)
    | save i => exact ih (h.save i)

/-- Whatever the parts of orders follow each other in, no two commands ever share server and name,
and the contents are those that the orders make one after the other, in the order in which they
changed the memory. When no order is pending, so is the file: if there was a change, it holds the
contents as they are, and no change is lost. -/
theorem run_interleaved {k : Keeper} (ids : k.contents.ids.Nodup)
    (names : (k.contents.commands.map Command.key).Nodup) (moves : List Move) :
    let d := (idle k).run moves
    (d.keeper.contents.commands.map Command.key).Nodup ∧
      d.keeper.contents = (k.serve d.made).contents ∧
      (d.pending = [] → d.keeper = k.serve d.made ∧
        (d.made ≠ [] → d.keeper.store.file = some d.keeper.contents.fileText)) := by
  intro d
  have kept : d.Kept k := (kept_idle ⟨ids, names⟩).run moves
  refine ⟨kept.keyed.keys, kept.contents, fun none => ?_⟩
  have served := Keeper.eq_of_parts kept.contents (kept.settled none) kept.supply
  refine ⟨served, fun some => ?_⟩
  rw [served]
  exact kept.written some

/-- Two orders change the memory before either writes the file, and a third is refused because of
the first. -/
theorem run_interleaved_crossing :
    let moves : List Move := [
      .start (.add 7 "hey".toList "hello".toList none), .start (.edit 7 "greet".toList "bye".toList),
      .start (.add 7 " HEY".toList "again".toList none), .save 1, .save 0]
    let d := (idle welcoming).run moves
    d.pending = [] ∧ d.keeper.contents.commands.map Command.key =
        [(7, "greet".toList), (7, "hey".toList)] ∧
      d.keeper = welcoming.serve d.made ∧
      d.keeper.store.file = some d.keeper.contents.fileText := by
  intro moves d
  have none : d.pending = [] := by decide +kernel
  have some : d.made ≠ [] := by decide +kernel
  obtain ⟨-, -, settled⟩ := run_interleaved (k := welcoming) (by decide) (by decide) moves
  exact ⟨none, by decide +kernel, (settled none).1, (settled none).2 some⟩

end Desk

end Work

end ChatCommands
