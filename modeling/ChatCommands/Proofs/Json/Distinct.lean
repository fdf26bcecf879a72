import ChatCommands.Proofs.Json.Fields
import ChatCommands.Proofs.Json.Reading

/-!
Objects whose fields have distinct names, at every depth. Whatever is read is made of such objects.
-/

namespace ChatCommands.Json

mutual
/-- Whether the fields of every object in a value have distinct names. -/
def Distinct : Json → Prop
  | .scalar _ => True
  | .array items => DistinctItems items
  | .object fields => (fields.map Prod.fst).Nodup ∧ DistinctFields fields
def DistinctItems : List Json → Prop
  | [] => True
  | x :: rest => Distinct x ∧ DistinctItems rest
def DistinctFields : List (Text × Json) → Prop
  | [] => True
  | (_, v) :: rest => Distinct v ∧ DistinctFields rest
end

theorem distinctItems_iff {items : List Json} :
    DistinctItems items ↔ ∀ x ∈ items, Distinct x := by
  induction items with
  | nil => simp [DistinctItems]
  | cons x rest ih => simp [DistinctItems, ih]

theorem distinctFields_iff {fields : List (Text × Json)} :
    DistinctFields fields ↔ ∀ field ∈ fields, Distinct field.2 := by
  induction fields with
  | nil => simp [DistinctFields]
  | cons field rest ih => simp [DistinctFields, ih]

theorem hereditary_distinct : Hereditary Distinct where
  text _ := trivial
  word read := by
    obtain ⟨s, rfl⟩ := readWord_scalar read
    trivial
  array := distinctItems_iff.mpr
  object {fields} parts := by
    refine ⟨nodup_mergeFields fields, distinctFields_iff.mpr fun field member => ?_⟩
    obtain ⟨g, known, same⟩ := mem_mergeFields member
    exact same ▸ parts g known

theorem read_distinct {t : Text} {j : Json} (h : read t = .ok j) : j.Distinct :=
  hereditary_distinct.read h

end ChatCommands.Json
