import ChatCommands.Proofs.Json.Likeness
import ChatCommands.Value.Access

/-!
What a list finds when it is asked for an item of its own.

An item is compared by its text in the list, which is JSON for containers and records, with the
text that it has as an argument, which is its literal.
-/

namespace ChatCommands

/-- Whether an item has the same text in its list and as an argument. -/
def Item.Alike : Item → Prop
  | .json (.scalar _) => True
  | .json j => j.Alike
  | .detail _ => False

/-- Records are objects in a list, and as arguments begin with the name of their kind. -/
theorem Item.text_ne_literal (d e : Detail) : (Item.detail d).text ≠ e.literal := by
  cases e <;> exact (Text.Forks.of_head (by decide)).ne

theorem Item.text_eq_scalarText_iff (i : Item) : i.text = i.value.scalarText ↔ i.Alike := by
  cases i with
  | json j =>
    cases j with
    | scalar s => exact iff_of_true rfl trivial
    | array items => exact (Json.decided (.array items)).eq_iff
    | object fields => exact (Json.decided (.object fields)).eq_iff
  | detail d => exact iff_of_false (Item.text_ne_literal d d) id

namespace Value

variable {v : Value} {items : List Item}

theorem index?_of_items (list : v.items? = some items) {i : Nat} (bound : i < items.length) :
    v.index? (.scalar (.int i)) = .ok (some items[i].value) := by
  have here : itemAt items i = items[i].value := by
    rw [itemAt, if_neg (by omega), Int.toNat_natCast, List.getElem?_eq_getElem bound]
    rfl
  rw [← here]
  unfold index?
  rw [list]
  rfl

theorem call?_of_items (list : v.items? = some items) (name : Text) (args : List Value) :
    v.call? name args = callItems? items name args := by
  have asked : v.call? name args = v.items?.bind fun items => callItems? items name args := by
    cases v with
    | json j =>
      cases j with
      | scalar s => cases list
      | array xs => rfl
      | object fields => cases list
    | tuple xs => rfl
    | record r => cases list
  rw [asked, list, Option.bind_some]

/-- A list finds an item of its own if the item has the same text as an argument, or else if some
other item has the text that it is asked for. Among records it finds none. -/
theorem includes_own_item (list : v.items? = some items) {i : Nat} (bound : i < items.length) :
    v.index? (.scalar (.int i)) = .ok (some items[i].value) ∧
      ∃ found, v.call? "includes".toList [items[i].value] = some (.bool found) ∧
        (found = true ↔ items[i].Alike ∨
          ∃ k, ∃ _ : k < items.length, k ≠ i ∧ items[k].text = items[i].value.scalarText) ∧
        ((∀ item ∈ items, ∃ d, item = .detail d) → found = false) := by
  refine ⟨index?_of_items list bound, _, call?_of_items list _ _, ?_, fun records => ?_⟩
  · rw [List.any_eq_true, ← Item.text_eq_scalarText_iff]
    constructor
    · rintro ⟨item, member, same⟩
      obtain ⟨k, inside, rfl⟩ := List.getElem_of_mem member
      by_cases own : k = i
      · subst own
        exact .inl (beq_iff_eq.mp same)
      · exact .inr ⟨k, inside, own, beq_iff_eq.mp same⟩
    · rintro (same | ⟨k, inside, _, same⟩)
      · exact ⟨_, List.getElem_mem bound, beq_iff_eq.mpr same⟩
      · exact ⟨_, List.getElem_mem inside, beq_iff_eq.mpr same⟩
  · obtain ⟨e, own⟩ := records _ (List.getElem_mem bound)
    refine List.any_eq_false.mpr fun item member same => ?_
    obtain ⟨d, rfl⟩ := records item member
    rw [own] at same
    exact Item.text_ne_literal d e (beq_iff_eq.mp same)

/-- A nested list is found whose only text has a single mark, so that its literal has double
ones. -/
theorem includes_own_item_nested :
    let nested : Json := .array [.int 1, .text "it\x27s".toList]
    (Value.json (.array [.text [], nested])).call? "includes".toList [.json nested] =
      some (.bool true) := by
  intro nested
  obtain ⟨-, found, asked, iff, -⟩ := includes_own_item
    (v := .json (.array [.text [], nested])) rfl (i := 1) (by decide)
  have printable : "it\x27s".toList.all Text.isPrintable = true := by decide +kernel
  have alike : nested.Alike :=
    ⟨trivial, ⟨by decide, fun c member => .inl (List.all_eq_true.mp printable c member)⟩, trivial⟩
  rw [iff.mpr (.inl alike)] at asked
  exact asked

/-- An object is not found in its own list: it is JSON there, and has single marks as an
argument. -/
theorem includes_own_object :
    let items : Json := .array [.object [("a".toList, .int 1)]]
    ∃ item, (Value.json items).index? (.scalar (.int 0)) = .ok (some item) ∧
      (Value.json items).call? "includes".toList [item] = some (.bool false) := by
  intro items
  let object : Json := .object [("a".toList, .int 1)]
  have apart : ([Item.json object].any fun i => i.text == object.literal) = false := by
    decide +kernel
  exact ⟨.json object, rfl, congrArg (fun found => some (Value.bool found)) apart⟩

end Value

end ChatCommands
