import ChatCommands.Proofs.Store.Call
import Mathlib.Data.List.Nodup

/-!
The contents as a list of commands under their ids.

Putting a command keeps the commands under other ids where they are, and leaves exactly one place
for its own id.
-/

namespace ChatCommands.Contents

def ids (s : Contents) : List Text :=
  s.commands.map Command.id

theorem mem_ids {s : Contents} {id : Text} : id ∈ s.ids ↔ ∃ d ∈ s.commands, d.id = id := by
  simp [ids]

theorem mem_ids_of_mem {s : Contents} {d : Command} (h : d ∈ s.commands) : d.id ∈ s.ids :=
  mem_ids.mpr ⟨d, h, rfl⟩

/-- A command, or the one that takes the place of its id. -/
def replaced (c d : Command) : Command :=
  if d.id = c.id then c else d

@[simp] theorem replaced_id (c d : Command) : (replaced c d).id = d.id := by
  unfold replaced
  split <;> simp_all

theorem replaced_of_ne {c d : Command} (h : d.id ≠ c.id) : replaced c d = d := by
  simp [replaced, h]

theorem put_fresh {s : Contents} {c : Command} (fresh : c.id ∉ s.ids) :
    s.put c = { s with commands := s.commands ++ [c] } := by
  have none : ¬ ∃ d ∈ s.commands, d.id = c.id := fun h => fresh (mem_ids.mpr h)
  simp only [put, List.any_eq_true, beq_iff_eq, if_neg none]

theorem put_known {s : Contents} {c : Command} (known : c.id ∈ s.ids) :
    s.put c = { s with commands := s.commands.map (replaced c) } := by
  have some : ∃ d ∈ s.commands, d.id = c.id := mem_ids.mp known
  simp only [put, List.any_eq_true, beq_iff_eq, if_pos some]
  congr 1

@[simp] theorem put_prefixes (s : Contents) (c : Command) : (s.put c).prefixes = s.prefixes := rfl

theorem ids_put (s : Contents) (c : Command) :
    (s.put c).ids = if c.id ∈ s.ids then s.ids else s.ids ++ [c.id] := by
  split
  · rename_i known
    rw [put_known known]
    simp [ids]
  · rename_i fresh
    rw [put_fresh fresh]
    simp [ids]

theorem mem_put {s : Contents} {c d : Command} :
    d ∈ (s.put c).commands ↔ d = c ∨ d ∈ s.commands ∧ d.id ≠ c.id := by
  by_cases known : c.id ∈ s.ids
  · obtain ⟨e, he, hid⟩ := mem_ids.mp known
    simp only [put_known known, List.mem_map]
    constructor
    · rintro ⟨b, hb, rfl⟩
      by_cases hbc : b.id = c.id
      · left; simp [replaced, hbc]
      · right; rw [replaced_of_ne hbc]; exact ⟨hb, hbc⟩
    · rintro (rfl | ⟨hd, hdc⟩)
      · exact ⟨e, he, by simp [replaced, hid]⟩
      · exact ⟨d, hd, replaced_of_ne hdc⟩
  · simp only [put_fresh known, List.mem_append, List.mem_singleton]
    constructor
    · rintro (hd | rfl)
      · exact .inr ⟨hd, fun h => known (mem_ids.mpr ⟨d, hd, h⟩)⟩
      · exact .inl rfl
    · rintro (rfl | ⟨hd, -⟩)
      · exact .inr rfl
      · exact .inl hd

/-- What holds of every command holds after a put, if it holds of the command that is put. -/
theorem forall_mem_put {s : Contents} {c : Command} {p : Command → Prop}
    (old : ∀ d ∈ s.commands, p d) (new : p c) : ∀ d ∈ (s.put c).commands, p d := by
  intro d hd
  rcases mem_put.mp hd with rfl | ⟨hd, -⟩
  · exact new
  · exact old d hd

theorem nodup_ids_put {s : Contents} (h : s.ids.Nodup) (c : Command) : (s.put c).ids.Nodup := by
  rw [ids_put]
  split
  · exact h
  · rename_i fresh
    exact List.nodup_append.mpr ⟨h, by simp, by rintro a ha b hb rfl; simp_all⟩

/-- In contents with distinct ids a command is fixed by its id. -/
theorem eq_of_id_eq {s : Contents} (h : s.ids.Nodup) {c d : Command} (hc : c ∈ s.commands)
    (hd : d ∈ s.commands) (same : c.id = d.id) : c = d :=
  List.inj_on_of_nodup_map h hc hd same

theorem mem_of_find {s : Contents} {g : Int} {name : Text} {c : Command}
    (h : s.find g name = some c) : c ∈ s.commands ∧ c.server = g ∧ c.name = key name := by
  have hp := List.find?_some h
  simp only [Bool.and_eq_true, beq_iff_eq] at hp
  exact ⟨List.mem_of_find?_eq_some h, hp⟩

/-- What a server finds by an identifier is a command of its own. -/
theorem mem_of_findByIdentifier {s : Contents} {g : Int} {identifier : Text} {c : Command}
    (h : s.findByIdentifier g identifier = some c) : c ∈ s.commands ∧ c.server = g := by
  unfold findByIdentifier at h
  have named : ∀ {d}, s.find g identifier = some d → d ∈ s.commands ∧ d.server = g :=
    fun found => ⟨(mem_of_find found).1, (mem_of_find found).2.1⟩
  split at h
  · rename_i d found
    split at h
    · rename_i own
      cases h
      exact ⟨List.mem_of_find?_eq_some found, by simpa using own⟩
    · exact named h
  · exact named h

/-- A call brings no id into the contents but the one it is handed. -/
theorem ids_change {s t : Contents} {c : Store.Call} (h : s.Change c t) :
    t.ids.Sublist (s.ids ++ c.newId?.toList) := by
  cases h with
  | kept => exact List.sublist_append_left ..
  | added =>
    rw [ids_put]
    split
    · exact List.sublist_append_left ..
    · exact List.Sublist.refl _
  | edited found =>
    rw [ids_put, if_pos (mem_ids_of_mem (mem_of_findByIdentifier found).1)]
    exact List.sublist_append_left ..
  | removed => exact (List.filter_sublist.map _).trans (List.sublist_append_left ..)
  | prefixed => exact List.sublist_append_left ..

end ChatCommands.Contents
