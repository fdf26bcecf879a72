import ChatCommands.Json.Read
import ChatCommands.Proofs.Result

/-!
What holds of every value that is read: it holds of texts, of words and numerals, and of each
container that is put together from parts it holds of.
-/

namespace ChatCommands.Json

/-- A property that what is read has, and that the parts of a container hand on to it. -/
structure Hereditary (good : Json → Prop) : Prop where
  text (t : Text) : good (.text t)
  word {c next : Cursor} {j : Json} : readWord c = .ok (j, next) → good j
  array {items : List Json} : (∀ x ∈ items, good x) → good (.array items)
  object {fields : List (Text × Json)} :
    (∀ field ∈ fields, good field.2) → good (.object (mergeFields fields))

/-- With so much fuel everything that is read is good. -/
structure ReadsGood (good : Json → Prop) (fuel : Nat) : Prop where
  value {c next : Cursor} {j : Json} : readValue fuel c = .ok (j, next) → good j
  items {c next : Cursor} {xs : List Json} :
    readItems fuel c = .ok (xs, next) → ∀ x ∈ xs, good x
  fields {c next : Cursor} {xs : List (Text × Json)} :
    readFields fuel c = .ok (xs, next) → ∀ field ∈ xs, good field.2

namespace ReadsGood

variable {good : Json → Prop} {fuel : Nat} {c next : Cursor}

theorem value_succ (ih : ReadsGood good fuel) (inherited : Hereditary good) {j : Json}
    (h : readValue (fuel + 1) c = .ok (j, next)) : good j := by
  rw [readValue] at h
  split at h
  · obtain ⟨⟨t, _⟩, -, same⟩ := map_eq_ok.mp h
    cases same
    exact inherited.text t
  · dsimp only at h
    split at h
    · cases h
      exact inherited.array (List.forall_mem_nil _)
    · obtain ⟨⟨xs, _⟩, inside, same⟩ := map_eq_ok.mp h
      cases same
      exact inherited.array (ih.items inside)
  · dsimp only at h
    split at h
    · cases h
      exact inherited.object (List.forall_mem_nil _)
    · obtain ⟨⟨xs, _⟩, inside, same⟩ := map_eq_ok.mp h
      cases same
      exact inherited.object (ih.fields inside)
  · exact inherited.word h

theorem items_succ (ih : ReadsGood good fuel) {xs : List Json}
    (h : readItems (fuel + 1) c = .ok (xs, next)) : ∀ x ∈ xs, good x := by
  rw [readItems] at h
  obtain ⟨⟨x, after⟩, first, h⟩ := bind_eq_ok.mp h
  dsimp only at h
  split at h
  · cases h
    exact List.forall_mem_singleton.mpr (ih.value first)
  split at h
  · obtain ⟨⟨rest, _⟩, later, same⟩ := bind_eq_ok.mp h
    cases same
    exact List.forall_mem_cons.mpr ⟨ih.value first, ih.items later⟩
  · cases h

theorem fields_succ (ih : ReadsGood good fuel) {xs : List (Text × Json)}
    (h : readFields (fuel + 1) c = .ok (xs, next)) : ∀ field ∈ xs, good field.2 := by
  rw [readFields] at h
  split at h
  · cases h
  obtain ⟨⟨name, after⟩, -, h⟩ := bind_eq_ok.mp h
  dsimp only at h
  split at h
  · cases h
  obtain ⟨⟨v, after'⟩, first, h⟩ := bind_eq_ok.mp h
  dsimp only at h
  split at h
  · cases h
    exact List.forall_mem_singleton.mpr (ih.value first)
  split at h
  · obtain ⟨⟨rest, _⟩, later, same⟩ := bind_eq_ok.mp h
    cases same
    exact List.forall_mem_cons.mpr ⟨ih.value first, ih.fields later⟩
  · cases h

end ReadsGood

namespace Hereditary

variable {good : Json → Prop}

theorem reads (inherited : Hereditary good) (fuel : Nat) : ReadsGood good fuel := by
  induction fuel with
  | zero => exact ⟨fun h => (nomatch h), fun h => (nomatch h), fun h => (nomatch h)⟩
  | succ fuel ih => exact ⟨ih.value_succ inherited, ih.items_succ, ih.fields_succ⟩

theorem read (inherited : Hereditary good) {t : Text} {j : Json} (h : Json.read t = .ok j) :
    good j := by
  simp only [Json.read] at h
  split at h
  · cases h
  · obtain ⟨⟨v, next⟩, first, h⟩ := bind_eq_ok.mp h
    dsimp only at h
    split at h
    · cases h
      exact (inherited.reads _).value first
    · cases h

end Hereditary

/-- A word or a numeral is a scalar. -/
theorem readWord_scalar {c next : Cursor} {j : Json} (h : readWord c = .ok (j, next)) :
    ∃ s, j = .scalar s := by
  unfold readWord at h
  split at h
  · rename_i word value found
    cases h
    have member := List.mem_of_find?_eq_some found
    simp only [words, List.mem_cons, List.not_mem_nil, or_false, Prod.mk.injEq] at member
    rcases member with ⟨-, rfl⟩ | ⟨-, rfl⟩ | ⟨-, rfl⟩ | ⟨-, rfl⟩ | ⟨-, rfl⟩ | ⟨-, rfl⟩ <;>
      exact ⟨_, rfl⟩
  · simp only [readNumber] at h
    split at h
    · cases h
    · repeat' split at h
      all_goals cases h
      all_goals exact ⟨_, rfl⟩

end ChatCommands.Json
