import ChatCommands.Proofs.Json.Fields
import ChatCommands.Proofs.Json.Reading
import ChatCommands.Proofs.Number.Magnitude
import ChatCommands.Value.Convert

/-!
What JSON that has been read can stand for: no scalar in it stands for an integer with more digits
than are read.
-/

namespace ChatCommands

/-- Whether the integer that a scalar stands for, if it stands for one, is short. -/
def Scalar.Modest (s : Scalar) : Prop :=
  ∀ n, s.toInteger = .ok n → Numeral.Short n

namespace Scalar

theorem modest_null : Modest .null := fun _ none => nomatch none

theorem modest_bool (b : Bool) : Modest (.bool b) := by
  intro n same
  cases same
  cases b <;> decide

theorem modest_int {n : Int} (h : Numeral.Short n) : Modest (.int n) := by
  intro m same
  cases same
  exact h

theorem modest_text (t : Text) : Modest (.text t) := by
  intro n same
  simp only [toInteger] at same
  split at same
  · rename_i m read
    cases same
    exact Numeral.short_readInt read
  · cases same

theorem modest_float {x : Binary64} (h : x.Moderate) : Modest (.float x) := by
  intro n same
  cases x with
  | infinite s => cases same
  | nan => cases same
  | finite s mantissa exponent =>
    simp only [toInteger] at same
    cases whole : (Binary64.finite s mantissa exponent).truncate? with
    | none =>
      rw [whole] at same
      cases same
      decide
    | some m =>
      rw [whole] at same
      cases same
      exact Binary64.short_truncate h whole

end Scalar

namespace Json

mutual
/-- Whether every scalar in a value is modest. -/
def Modest : Json → Prop
  | .scalar s => s.Modest
  | .array items => ModestItems items
  | .object fields => ModestFields fields
def ModestItems : List Json → Prop
  | [] => True
  | x :: rest => Modest x ∧ ModestItems rest
def ModestFields : List (Text × Json) → Prop
  | [] => True
  | (_, v) :: rest => Modest v ∧ ModestFields rest
end

theorem modestFields_iff {fields : List (Text × Json)} :
    ModestFields fields ↔ ∀ field ∈ fields, Modest field.2 := by
  induction fields with
  | nil => simp [ModestFields]
  | cons field rest ih => simp [ModestFields, ih]

theorem modest_field {fields : List (Text × Json)} (h : ModestFields fields) {name : Text}
    {j : Json} (found : field? name fields = some j) : j.Modest := by
  obtain ⟨before, after, rfl, -⟩ := List.lookup_eq_some_iff.mp found
  exact modestFields_iff.mp h (name, j) (by simp)

theorem modest_mergeFields {fields : List (Text × Json)} (h : ModestFields fields) :
    ModestFields (mergeFields fields) := by
  rw [modestFields_iff] at h ⊢
  intro field member
  obtain ⟨g, hg, same⟩ := mem_mergeFields member
  exact same ▸ h g hg

/-! ### Numerals -/

theorem digit_lt {c : Char} (digit : isAsciiDigit c = true) : c.toNat - '0'.toNat < 10 := by
  have bounds := Char.isDigit_iff_toNat.mp digit
  have high : c.toNat ≤ 57 := bounds.2
  change c.toNat - 48 < 10
  omega

theorem wholePart_digits {t whole rest : Text} (h : wholePart t = some (whole, rest)) :
    ∀ c ∈ whole, isAsciiDigit c = true := by
  unfold wholePart at h
  split at h
  · cases h
    simp [isAsciiDigit]
  · split at h
    · cases h
    · cases h
      exact fun c member => List.all_eq_true.mp List.all_takeWhile c member

theorem readNumber_modest {c next : Cursor} {j : Json} (h : readNumber c = .ok (j, next)) :
    j.Modest := by
  simp only [readNumber] at h
  split at h
  · cases h
  · rename_i whole afterWhole part
    have ten : ∀ d ∈ whole.map fun c => c.toNat - '0'.toNat, d < 10 := by
      intro d hd
      obtain ⟨c, hc, rfl⟩ := List.mem_map.mp hd
      exact digit_lt (wholePart_digits part c hc)
    split at h
    · cases h
      exact Scalar.modest_float (Binary64.moderate_ofDecimal ..)
    split at h
    · cases h
      exact Scalar.modest_float (Binary64.moderate_ofDecimal ..)
    split at h
    · cases h
    · rename_i few
      cases h
      refine Scalar.modest_int (Numeral.short_of_digits ten ?_ ?_)
      · rw [List.length_map]
        omega
      · split
        · rw [Int.natAbs_neg]
          rfl
        · rfl

theorem readWord_modest {c next : Cursor} {j : Json} (h : readWord c = .ok (j, next)) :
    j.Modest := by
  unfold readWord at h
  split at h
  · rename_i word value found
    cases h
    have member := List.mem_of_find?_eq_some found
    simp only [words, List.mem_cons, List.not_mem_nil, or_false, Prod.mk.injEq] at member
    rcases member with ⟨-, rfl⟩ | ⟨-, rfl⟩ | ⟨-, rfl⟩ | ⟨-, rfl⟩ | ⟨-, rfl⟩ | ⟨-, rfl⟩
    · exact Scalar.modest_null
    · exact Scalar.modest_bool true
    · exact Scalar.modest_bool false
    · exact Scalar.modest_float trivial
    · exact Scalar.modest_float trivial
    · exact Scalar.modest_float trivial
  · exact readNumber_modest h

/-! ### Values -/

theorem modestItems_iff {items : List Json} : ModestItems items ↔ ∀ x ∈ items, Modest x := by
  induction items with
  | nil => simp [ModestItems]
  | cons x rest ih => simp [ModestItems, ih]

theorem hereditary_modest : Hereditary Modest where
  text := Scalar.modest_text
  word := readWord_modest
  array := modestItems_iff.mpr
  object parts := modest_mergeFields (modestFields_iff.mpr parts)

/-- Whatever a text is read as is modest. -/
theorem read_modest {t : Text} {j : Json} (h : read t = .ok j) : j.Modest :=
  hereditary_modest.read h

end Json

end ChatCommands
