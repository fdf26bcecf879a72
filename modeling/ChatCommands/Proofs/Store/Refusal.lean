import ChatCommands.Proofs.Store.Contents
import ChatCommands.Store.Work

/-!
What a work order comes to.

An order checks everything before it changes anything, so it either does the whole change that
the contents allow, or is refused and leaves memory, file and supply as they were.
-/

namespace ChatCommands

namespace Contents

theorem put_put (s : Contents) {c d : Command} (same : c.id = d.id) : (s.put c).put d = s.put d := by
  by_cases known : c.id ∈ s.ids
  · have there : d.id ∈ (s.put c).ids := by
      rw [ids_put, if_pos known]
      exact same ▸ known
    rw [put_known there, put_known known, put_known (same ▸ known), List.map_map]
    congr 1
    apply List.map_congr_left
    intro b _
    by_cases hb : b.id = c.id
    · simp [replaced, hb, same]
    · simp [replaced, hb, same ▸ hb]
  · have there : d.id ∈ (s.put c).ids := by
      rw [ids_put, if_neg known, same]
      exact List.mem_append_right _ List.mem_cons_self
    have others : s.commands.map (replaced d) = s.commands := by
      rw [List.map_congr_left fun b hb => replaced_of_ne fun h => known (same ▸ h ▸ mem_ids_of_mem hb),
        List.map_id'']
      exact fun _ => rfl
    rw [put_known there, put_fresh known, put_fresh (same ▸ known)]
    simp [others, replaced, same]

/-- An entry that is made before it is filled makes no difference. -/
theorem putPrefix_entered (g : Int) (own : Option Text) (settings : List (Int × Option Text)) :
    putPrefix g own (Work.entered g settings) = putPrefix g own settings := by
  unfold Work.entered
  split
  · rfl
  · rename_i fresh
    simp only [List.any_eq_true, beq_iff_eq, not_exists, not_and] at fresh
    induction settings with
    | nil => simp [putPrefix]
    | cons setting rest ih =>
      obtain ⟨here, later⟩ := List.forall_mem_cons.mp fresh
      simp [putPrefix, here, ih later]

end Contents

namespace Work

variable {α β : Type}

theorem outcome_bind (x : Work α) (f : α → Work β) (k : Keeper) :
    (x >>= f).outcome k = match x.outcome k with
      | (.ok a, next) => (f a).outcome next
      | (.error e, next) => (.error e, next) := by
  simp only [outcome, bind, ExceptT.bind, ExceptT.run, ExceptT.mk, StateT.bind, StateT.run]
  rcases x k with ⟨_ | _, next⟩ <;> rfl

theorem outcome_map (f : α → β) (x : Work α) (k : Keeper) :
    (f <$> x).outcome k = ((x.outcome k).1.map f, (x.outcome k).2) := by
  rw [map_eq_pure_bind, outcome_bind]
  rcases x.outcome k with ⟨_ | _, next⟩ <;> rfl

theorem outcome_contents (k : Keeper) : contents.outcome k = (.ok k.contents, k) :=
  rfl

theorem outcome_check (holds : Bool) (e : StoreError) (k : Keeper) :
    (check holds e).outcome k = (if holds then .ok () else .error e, k) := by
  cases holds <;> rfl

theorem outcome_known (g : Int) (identifier : Text) (k : Keeper) :
    (known g identifier).outcome k = match k.contents.findByIdentifier g identifier with
      | some c => (.ok c, k)
      | none => (.error (.unknown identifier), k) := by
  change outcome (match k.contents.findByIdentifier g identifier with
    | some c => pure c
    | none => throw (.unknown identifier)) k = _
  split <;> rfl

/-- A change of the contents, made in memory, where it is not refused. -/
def settled (k : Keeper) (supply : Supply) :
    Except StoreError (α × Contents) → Except StoreError α × Keeper
  | .ok (a, s) => (.ok a, ⟨⟨s, k.store.file⟩, supply⟩)
  | .error e => (.error e, k)

theorem settled_map (k : Keeper) (supply : Supply) (f : α → β)
    (r : Except StoreError (α × Contents)) :
    ((settled k supply r).1.map f, (settled k supply r).2) =
      settled k supply (r.map fun (a, s) => (f a, s)) := by
  cases r <;> rfl

/-! ### What each kind of work does, though it does it piece by piece -/

section Kinds

variable (g : Int) (k : Keeper)

theorem add_outcome (name response : Text) (createdBy : Option Int) :
    (add g name response createdBy).outcome k =
      settled k { k.supply with ids := k.supply.ids + 1, times := k.supply.times + 1 }
        (k.contents.add g name response createdBy k.supply.nextId k.supply.now) := by
  simp only [add, Contents.add, outcome_bind, outcome_check]
  cases word : Contents.isWord (Contents.key name) with
  | false => rfl
  | true =>
    cases blank : Text.blank response with
    | true => rfl
    | false =>
      simp only [Bool.not_true, Bool.not_false, if_true, outcome_contents]
      cases taken : k.contents.find g (Contents.key name) with
      | none => rfl
      | some c => rfl

theorem edit_outcome (identifier response : Text) :
    (edit g identifier response).outcome k =
      settled k { k.supply with times := k.supply.times + 1 }
        (k.contents.edit g identifier response k.supply.now) := by
  simp only [edit, Contents.edit, outcome_bind, outcome_known]
  cases found : k.contents.findByIdentifier g identifier with
  | none => rfl
  | some old =>
    simp only [outcome_check]
    cases blank : Text.blank response with
    | true => rfl
    | false =>
      -- The response is changed first and the time after it, which comes to one change of both.
      have same := Contents.put_put k.contents
        (c := { old with response }) (d := { old with response, updatedAt := some k.supply.now }) rfl
      change (Except.ok _, Keeper.mk ⟨(k.contents.put _).put _, _⟩ _) = _
      rw [same]
      rfl

theorem remove_outcome (identifier : Text) :
    (remove g identifier).outcome k = settled k k.supply (k.contents.remove g identifier) := by
  simp only [remove, Contents.remove, outcome_bind, outcome_known]
  cases found : k.contents.findByIdentifier g identifier with
  | none => rfl
  | some c => rfl

theorem setPrefix_outcome (own : Text) :
    (setPrefix g own).outcome k = settled k k.supply (k.contents.setPrefix g own) := by
  simp only [setPrefix, Contents.setPrefix, outcome_bind, outcome_check]
  cases word : Contents.isWord (Text.strip own) with
  | false => rfl
  | true =>
    change (Except.ok _, Keeper.mk ⟨⟨_, Contents.putPrefix g _ (entered g _)⟩, _⟩ _) = _
    rw [Contents.putPrefix_entered]
    rfl

end Kinds

namespace Order

/-- What an order makes of contents, with the id and the time that are next. -/
def plan (s : Contents) (supply : Supply) : Order → Except StoreError (Product × Contents)
  | add g name response createdBy =>
    (s.add g name response createdBy supply.nextId supply.now).map fun (c, t) => (.command c, t)
  | edit g identifier response =>
    (s.edit g identifier response supply.now).map fun (c, t) => (.command c, t)
  | remove g identifier => (s.remove g identifier).map fun (c, t) => (.command c, t)
  | setPrefix g own => (s.setPrefix g own).map fun (cleaned, t) => (.ownPrefix cleaned, t)

/-- What is left of a supply when an order has been carried out. -/
def spent (supply : Supply) : Order → Supply
  | add .. => { supply with ids := supply.ids + 1, times := supply.times + 1 }
  | edit .. => { supply with times := supply.times + 1 }
  | remove .. | setPrefix .. => supply

theorem start_outcome (o : Order) (k : Keeper) :
    o.start.outcome k = settled k (o.spent k.supply) (o.plan k.contents k.supply) := by
  cases o with
  | add => rw [start, outcome_map, add_outcome, settled_map]; rfl
  | edit => rw [start, outcome_map, edit_outcome, settled_map]; rfl
  | remove => rw [start, outcome_map, remove_outcome, settled_map]; rfl
  | setPrefix => rw [start, outcome_map, setPrefix_outcome, settled_map]; rfl

theorem whole_outcome (o : Order) (k : Keeper) :
    o.whole.outcome k = match o.plan k.contents k.supply with
      | .ok (made, s) => (.ok made, ⟨Store.save ⟨s, k.store.file⟩, o.spent k.supply⟩)
      | .error e => (.error e, k) := by
  rw [whole, outcome_bind, start_outcome]
  cases o.plan k.contents k.supply <;> rfl

/-- What an order comes to where every change is made at one go. -/
def atOnce (k : Keeper) : Order → Except StoreError Product × Keeper
  | add g name response createdBy =>
    ((k.add g name response createdBy).1.map .command, (k.add g name response createdBy).2)
  | edit g identifier response =>
    ((k.edit g identifier response).1.map .command, (k.edit g identifier response).2)
  | remove g identifier => ((k.remove g identifier).1.map .command, (k.remove g identifier).2)
  | setPrefix g own => ((k.setPrefix g own).1.map .ownPrefix, (k.setPrefix g own).2)

theorem whole_eq_atOnce (o : Order) (k : Keeper) : o.whole.outcome k = o.atOnce k := by
  rw [whole_outcome]
  cases o with
  | add g name response createdBy =>
    simp only [plan, atOnce, Keeper.add, Store.add, Store.change]
    cases k.contents.add g name response createdBy k.supply.nextId k.supply.now <;> rfl
  | edit g identifier response =>
    simp only [plan, atOnce, Keeper.edit, Store.edit, Store.change]
    cases k.contents.edit g identifier response k.supply.now <;> rfl
  | remove g identifier =>
    simp only [plan, atOnce, Keeper.remove, Store.remove, Store.change]
    cases k.contents.remove g identifier <;> rfl
  | setPrefix g own =>
    simp only [plan, atOnce, Keeper.setPrefix, Store.setPrefix, Store.change]
    cases k.contents.setPrefix g own <;> rfl

/-- An order that is refused leaves everything as it was: the commands, the settings, the file, and
the ids and times to come. -/
theorem refusal_unchanged {o : Order} {k : Keeper} {e : StoreError}
    (refused : (o.whole.outcome k).1 = .error e) :
    (o.whole.outcome k).2 = k ∧ o.atOnce k = (.error e, k) := by
  rw [← whole_eq_atOnce]
  rw [whole_outcome] at refused ⊢
  cases planned : o.plan k.contents k.supply with
  | ok r =>
    rw [planned] at refused
    cases refused
  | error e' =>
    rw [planned] at refused
    cases refused
    exact ⟨rfl, rfl⟩

end Order

/-- A keeper of one command and one prefix. -/
def welcoming : Keeper where
  store := ⟨⟨[⟨"a1".toList, 7, "greet".toList, "hi".toList, none, none, none⟩],
    [(8, some ['?'])]⟩, none⟩
  supply := ⟨fun n => List.replicate n 'a', fun _ => ⟨2024, 1, 2, 3, 4, 5, 0, some 0⟩, 0, 0⟩

theorem refusal_unchanged_welcoming :
    ((Order.edit 7 "GREET".toList " ".toList).whole.outcome welcoming).1 =
        .error .blankResponse ∧
      ((Order.edit 7 "GREET".toList " ".toList).whole.outcome welcoming).2 = welcoming ∧
      ((Order.setPrefix 9 "a b".toList).whole.outcome welcoming).2 = welcoming :=
  have blank : ((Order.edit 7 "GREET".toList " ".toList).whole.outcome welcoming).1 =
    .error .blankResponse := rfl
  ⟨blank, (Order.refusal_unchanged blank).1, (Order.refusal_unchanged (e := .badPrefix) rfl).1⟩

end Work

end ChatCommands
