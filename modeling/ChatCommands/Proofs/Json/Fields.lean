import ChatCommands.Json.Basic

/-!
Fields set one by one: each value that is there was set, every name is there once, and distinct
names keep their order.
-/

namespace ChatCommands.Json

theorem mem_setField {α : Type} {name : Text} {v : α} {fields : List (Text × α)}
    {f : Text × α} (member : f ∈ setField name v fields) : f = (name, v) ∨ f ∈ fields := by
  induction fields with
  | nil => exact .inl (List.mem_singleton.mp member)
  | cons g rest ih =>
    rw [setField] at member
    split at member
    · rename_i here
      rcases List.mem_cons.mp member with rfl | later
      · exact .inl (here ▸ rfl)
      · exact .inr (List.mem_cons_of_mem _ later)
    · rcases List.mem_cons.mp member with rfl | later
      · exact .inr List.mem_cons_self
      · exact (ih later).imp_right (List.mem_cons_of_mem _)

theorem mem_mergeFields {α : Type} {fields : List (Text × α)} {f : Text × α}
    (member : f ∈ mergeFields fields) : ∃ g ∈ fields, f.2 = g.2 := by
  have more : ∀ known : List (Text × α),
      f ∈ fields.foldl (fun known (k, v) => setField k v known) known →
        f ∈ known ∨ ∃ g ∈ fields, f.2 = g.2 := by
    clear member
    induction fields with
    | nil => exact fun known member => .inl member
    | cons g rest ih =>
      intro known member
      rcases ih _ member with old | ⟨h, hmem, same⟩
      · rcases mem_setField old with same | old
        · exact .inr ⟨g, List.mem_cons_self, congrArg Prod.snd same⟩
        · exact .inl old
      · exact .inr ⟨h, List.mem_cons_of_mem _ hmem, same⟩
  rcases more [] member with none | found
  · cases none
  · exact found

theorem names_setField (name : Text) (value : α) (fields : List (Text × α)) :
    (setField name value fields).map Prod.fst =
      if name ∈ fields.map Prod.fst then fields.map Prod.fst
      else fields.map Prod.fst ++ [name] := by
  induction fields with
  | nil => rfl
  | cons field rest ih =>
    obtain ⟨k, v⟩ := field
    rw [setField]
    by_cases here : k = name
    · simp [here]
    · rw [if_neg here, List.map_cons, ih]
      by_cases later : name ∈ rest.map Prod.fst
      · simp [later]
      · simp [later, Ne.symm here]

theorem nodup_setField {fields : List (Text × α)} (distinct : (fields.map Prod.fst).Nodup)
    (name : Text) (value : α) : ((setField name value fields).map Prod.fst).Nodup := by
  rw [names_setField]
  split
  · exact distinct
  · rename_i fresh
    exact List.nodup_append.mpr ⟨distinct, List.pairwise_singleton .., fun k known l same =>
      List.mem_singleton.mp same ▸ ne_of_mem_of_not_mem known fresh⟩

/-- Whatever names the fields have, they are distinct when the fields have been set one by one. -/
theorem nodup_mergeFields (fields : List (Text × α)) :
    ((mergeFields fields).map Prod.fst).Nodup := by
  have more : ∀ known : List (Text × α), (known.map Prod.fst).Nodup →
      ((fields.foldl (fun known field => setField field.1 field.2 known) known).map
        Prod.fst).Nodup := by
    induction fields with
    | nil => exact fun known distinct => distinct
    | cons field rest ih =>
      exact fun known distinct => ih _ (nodup_setField distinct field.1 field.2)
  exact more [] List.nodup_nil

theorem setField_append {name : Text} {value : α} {known : List (Text × α)}
    (fresh : name ∉ known.map Prod.fst) : setField name value known = known ++ [(name, value)] := by
  induction known with
  | nil => rfl
  | cons entry known ih =>
    obtain ⟨k, v⟩ := entry
    simp only [List.map_cons, List.mem_cons, not_or] at fresh
    simp [setField, Ne.symm fresh.1, ih fresh.2]

theorem mergeFields_of_nodup {fields : List (Text × α)} (distinct : (fields.map Prod.fst).Nodup) :
    mergeFields fields = fields := by
  have more : ∀ known : List (Text × α), ((known ++ fields).map Prod.fst).Nodup →
      fields.foldl (fun known field => setField field.1 field.2 known) known = known ++ fields := by
    clear distinct
    induction fields with
    | nil => intro known _; simp
    | cons entry fields ih =>
      obtain ⟨k, v⟩ := entry
      intro known distinct
      have fresh : k ∉ known.map Prod.fst := by
        simp only [List.map_append, List.map_cons] at distinct
        exact fun h => (List.nodup_append.mp distinct).2.2 k h k List.mem_cons_self rfl
      rw [List.foldl_cons]
      dsimp only
      rw [setField_append fresh, ih _ (by simpa using distinct), List.append_assoc]
      rfl
  exact more [] distinct

theorem lookup_of_mem {fields : List (Text × α)} (distinct : (fields.map Prod.fst).Nodup)
    {field : Text × α} (member : field ∈ fields) : fields.lookup field.1 = some field.2 := by
  obtain ⟨before, after, rfl⟩ := List.append_of_mem member
  refine List.lookup_eq_some_iff.mpr ⟨before, after, rfl, fun other earlier => ?_⟩
  simp only [List.map_append, List.map_cons] at distinct
  have apart := (List.nodup_append.mp distinct).2.2 other.1 (List.mem_map_of_mem earlier)
    field.1 List.mem_cons_self
  exact bne_iff_ne.mpr apart.symm

theorem lookup_setField_self (name : Text) (v : α) (fields : List (Text × α)) :
    (setField name v fields).lookup name = some v := by
  induction fields with
  | nil => exact List.lookup_cons_self
  | cons field rest ih =>
    obtain ⟨k, w⟩ := field
    by_cases here : k = name
    · subst here
      simp only [setField, if_pos, List.lookup_cons_self]
    · simp only [setField, if_neg here, List.lookup_cons, beq_false_of_ne (Ne.symm here), ih]

theorem lookup_setField_ne {name other : Text} (apart : other ≠ name) (v : α)
    (fields : List (Text × α)) : (setField name v fields).lookup other = fields.lookup other := by
  induction fields with
  | nil => simp only [setField, List.lookup_cons, beq_false_of_ne apart]
  | cons field rest ih =>
    obtain ⟨k, w⟩ := field
    by_cases here : k = name
    · subst here
      simp only [setField, if_pos, List.lookup_cons, beq_false_of_ne apart]
    · simp only [setField, if_neg here, List.lookup_cons, ih]

theorem mem_of_lookup {fields : List (Text × α)} {name : Text} {v : α}
    (found : fields.lookup name = some v) : (name, v) ∈ fields := by
  obtain ⟨before, after, rfl, _⟩ := List.lookup_eq_some_iff.mp found
  exact List.mem_append_right _ List.mem_cons_self

end ChatCommands.Json
