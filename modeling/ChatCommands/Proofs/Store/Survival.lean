import ChatCommands.Proofs.Store.Isolation
import ChatCommands.Proofs.Store.KeyMap

/-!
What becomes of a command that is not removed.

Whatever else is called, the command stays under its id, its server and its name, and no other
command of the server comes by the name. Nothing is assumed of the other commands.
-/

namespace ChatCommands

/-- The id of the command that a call removed, given its answer. -/
def Store.removedId? : Store.Call × Store.Answer → Option Text
  | (.remove _ _, .command (.ok c)) => some c.id
  | _ => none

namespace Contents

/-- Whether a command is there under an id, and is the only one of its server with its name. -/
structure Holds (s : Contents) (id : Text) (g : Int) (name : Text) : Prop where
  present : ∃ c ∈ s.commands, c.id = id ∧ c.key = (g, name)
  alone : ∀ c ∈ s.commands, c.key = (g, name) → c.id = id

variable {s t : Contents} {id : Text} {g : Int} {name : Text}

theorem Holds.find (h : s.Holds id g name) (stable : key name = name) :
    ∃ c ∈ s.commands, c.id = id ∧ s.find g name = some c := by
  obtain ⟨c, mem, same, placed⟩ := h.present
  obtain ⟨server, named⟩ := Prod.mk.inj placed
  have found : (s.find g name).isSome = true := by
    rw [Contents.find, List.find?_isSome]
    exact ⟨c, mem, by simp [server, named, stable]⟩
  obtain ⟨d, hd⟩ := Option.isSome_iff_exists.mp found
  obtain ⟨mem', server', named'⟩ := mem_of_find hd
  have own : d.key = (g, name) := Prod.ext server' (named'.trans stable)
  exact ⟨d, mem', h.alone d mem' own, hd⟩

theorem holds_put {c : Command} (fresh : ∀ d ∈ s.commands, d.key ≠ c.key) :
    (s.put c).Holds c.id c.server c.name := by
  refine ⟨⟨c, mem_put.mpr (.inl rfl), rfl, rfl⟩, fun d hd same => ?_⟩
  rcases mem_put.mp hd with rfl | ⟨old, _⟩
  · rfl
  · exact absurd same (fresh d old)

/-- A call keeps a command in its place as long as it keeps its id. -/
theorem Holds.change {c : Store.Call} (h : s.Holds id g name) (change : s.Change c t)
    (distinct : (s.ids ++ c.newId?.toList).Nodup) (kept : id ∈ t.ids) : t.Holds id g name := by
  obtain ⟨own, mem, same, placed⟩ := h.present
  cases change with
  | kept | prefixed => exact ⟨⟨own, mem, same, placed⟩, h.alone⟩
  | added word filled free =>
    constructor
    · refine ⟨own, mem_put.mpr (.inr ⟨mem, fun clash => ?_⟩), same, placed⟩
      exact newId_fresh distinct rfl (mem_ids.mpr ⟨own, mem, clash⟩)
    · intro d hd alike
      rcases mem_put.mp hd with rfl | ⟨old, _⟩
      · exact absurd (placed.trans alike.symm) (key_ne_of_free word free own mem)
      · exact h.alone d old alike
  | @edited _ _ _ _ old found filled =>
    obtain ⟨inside, -⟩ := mem_of_findByIdentifier found
    -- What is edited may be the command itself: then the new one stands in its place.
    constructor
    · by_cases this : own.id = old.id
      · cases eq_of_id_eq (List.nodup_append.mp distinct).1 mem inside this
        exact ⟨_, mem_put.mpr (.inl rfl), same, placed⟩
      · exact ⟨own, mem_put.mpr (.inr ⟨mem, this⟩), same, placed⟩
    · intro d hd alike
      rcases mem_put.mp hd with rfl | ⟨other, _⟩
      · exact h.alone old inside alike
      · exact h.alone d other alike
  | @removed _ _ old found =>
    obtain ⟨d, left, named⟩ := mem_ids.mp kept
    obtain ⟨there, spared⟩ := List.mem_filter.mp left
    constructor
    · cases eq_of_id_eq (List.nodup_append.mp distinct).1 there mem (named.trans same.symm)
      exact ⟨own, left, same, placed⟩
    · exact fun d hd => h.alone d (List.mem_filter.mp hd).1

/-- A call keeps every id that it does not remove. -/
theorem mem_ids_answer {c : Store.Call} (mem : id ∈ s.ids)
    (kept : Store.removedId? (c, (s.answer c).1) ≠ some id) : id ∈ (s.answer c).2.ids := by
  have change := answer_change s c
  generalize after : (s.answer c).2 = t at change ⊢
  cases change with
  | kept | prefixed => exact mem
  | added | edited =>
    rw [ids_put]
    split
    · exact mem
    · exact List.mem_append_left _ mem
  | @removed server identifier old found =>
    have shown : (s.answer (.remove server identifier)).1 = .command (.ok old) := by
      simp only [answer, remove, found, Store.settle]
    rw [shown] at kept
    obtain ⟨d, inside, same⟩ := mem_ids.mp mem
    have spared : d.id ≠ old.id := fun clash => kept (congrArg some (clash.symm.trans same))
    exact mem_ids.mpr ⟨d, List.mem_filter.mpr ⟨inside, by simpa using spared⟩, same⟩

end Contents

/-- What no call removes stays in its place. -/
theorem Store.holds_run {s : Store} {calls : List Store.Call} {id : Text} {g : Int} {name : Text}
    (h : s.contents.Holds id g name) (distinct : (s.contents.ids ++ newIds calls).Nodup)
    (kept : id ∉ (s.run calls).1.filterMap removedId?) :
    (s.run calls).2.contents.Holds id g name := by
  induction calls generalizing s with
  | nil => exact h
  | cons c rest ih =>
    simp only [List.mem_filterMap, not_exists, not_and] at kept ih
    have here : removedId? (c, (s.answer c).1) ≠ some id := kept _ List.mem_cons_self
    refine ih ?_ (distinct_later distinct) fun x hx => kept x (List.mem_cons_of_mem _ hx)
    obtain ⟨own, mem, same, -⟩ := h.present
    rw [(answer_eq s c).1] at here
    rw [(answer_eq s c).2]
    apply h.change (Contents.answer_change _ _) (distinct_here distinct)
    exact Contents.mem_ids_answer (same ▸ Contents.mem_ids_of_mem mem) here

end ChatCommands
