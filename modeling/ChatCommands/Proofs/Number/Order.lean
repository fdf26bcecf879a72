import ChatCommands.Number.Basic

/-!
The order of numbers, integers and floats alike.

Two numbers compare the other way round when they change places, and a number is equal to itself.
Only a NaN compares with nothing.
-/

namespace ChatCommands

namespace Point

/-- Which of two points is written with the smaller exponent does not matter. -/
theorem compare_swap (p q : Point) : (p.compare q).swap = q.compare p := by
  cases p with
  | bottom => cases q <;> rfl
  | top => cases q <;> rfl
  | dyadic m e =>
    cases q with
    | bottom => rfl
    | top => rfl
    | dyadic n f =>
      have low : (if e ≤ f then e else f) = if f ≤ e then f else e := by
        split <;> split <;> omega
      rw [compare, compare]
      rw [low, Int.compare_swap]

theorem compare_self (p : Point) : p.compare p = .eq := by
  cases p with
  | bottom => rfl
  | top => rfl
  | dyadic m e => exact Int.compare_eq_eq.mpr rfl

end Point

namespace Number

variable {a b : Number}

theorem exists_point (number : a ≠ .float .nan) : ∃ p, a.point? = some p := by
  cases a with
  | int n => exact ⟨_, rfl⟩
  | float x =>
    cases x with
    | finite s m e => exact ⟨_, rfl⟩
    | infinite s => exact ⟨_, rfl⟩
    | nan => exact absurd rfl number

theorem compare?_swap (a b : Number) : (a.compare? b).map Ordering.swap = b.compare? a := by
  rw [compare?, compare?]
  cases a.point? with
  | none => cases b.point? <;> rfl
  | some p =>
    cases b.point? with
    | none => rfl
    | some q => exact congrArg some (p.compare_swap q)

theorem compare?_self (number : a ≠ .float .nan) : a.compare? a = some .eq := by
  obtain ⟨p, point⟩ := exists_point number
  rw [compare?, point]
  exact congrArg some p.compare_self

theorem exists_compare? (left : a ≠ .float .nan) (right : b ≠ .float .nan) :
    ∃ o, a.compare? b = some o := by
  obtain ⟨p, point⟩ := exists_point left
  obtain ⟨q, point'⟩ := exists_point right
  rw [compare?, point, point']
  exact ⟨_, rfl⟩

theorem same_iff : a.same b = true ↔ a.compare? b = some .eq := by
  rw [same, beq_iff_eq]

theorem same_comm (a b : Number) : a.same b = b.same a := by
  rw [same, same, ← compare?_swap a b]
  cases a.compare? b with
  | none => rfl
  | some o => cases o <;> rfl

end Number

end ChatCommands
