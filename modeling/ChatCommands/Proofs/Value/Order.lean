import ChatCommands.Proofs.Result
import ChatCommands.Proofs.Value.Equality

/-!
Order and loose equality of two values that can be compared.

Of less, loosely equal and greater exactly one holds, and at most means less or equal, unless the
values are two spellings of one number: the order reads both as numbers, while the equality takes
a text for a number only where the other side is one.
-/

namespace ChatCommands

namespace Text

theorem before_iff {s t : Text} : before s t = true ↔ s < t :=
  List.lex_eq_true_iff_lt

end Text

namespace Value

open Text (before before_iff)

theorem textOrder_eq_iff {s t : Text} : textOrder s t = .eq ↔ s = t := by
  rw [textOrder]
  by_cases same : s = t
  · simp [same]
  · rw [if_neg same]
    split <;> simp [same]

/-- Different texts stand before one another in one direction only. -/
theorem textOrder_swap (s t : Text) : (textOrder s t).swap = textOrder t s := by
  by_cases same : s = t
  · rw [same, textOrder_eq_iff.mpr rfl]
    rfl
  · rw [textOrder, textOrder, if_neg same, if_neg (Ne.symm same)]
    by_cases less : before s t = true
    · have other : ¬ before t s = true := fun more =>
        List.lt_asymm (before_iff.mp less) (before_iff.mp more)
      rw [if_pos less, if_neg other]
      rfl
    · have other : before t s = true := by
        rw [before_iff] at less ⊢
        refine Classical.byContradiction fun more => same ?_
        exact List.le_antisymm (List.not_lt.mp more) (List.not_lt.mp less)
      rw [if_neg less, if_pos other]
      rfl

variable {a b : Value}

/-- Whether a value is a NaN, or a text that reads as one. -/
def ReadsNaN (v : Value) : Prop :=
  v.number? = some (.float .nan)

theorem not_readsNaN {n : Number} (number : a.number? = some n) (other : n ≠ .float .nan) :
    ¬ a.ReadsNaN :=
  fun nan => other (Option.some.inj (number.symm.trans nan))

/-- Whether two values are different texts that are numerals of one number. -/
def Respelled (a b : Value) : Prop :=
  ∃ s t m n, a = .text s ∧ b = .text t ∧ s ≠ t ∧ a.number? = some m ∧ b.number? = some n ∧
    m.same n = true

section Numbers

variable {m n : Number}

/-- Two values that are numbers, or are read as such, are equal where they compare as equal,
different spellings of one number apart. -/
theorem looseEq_iff_of_numbers (left : a.number? = some m) (right : b.number? = some n)
    (nan : m ≠ .float .nan) :
    a.looseEq b = true ↔ m.compare? n = some .eq ∧ ¬ a.Respelled b := by
  rw [← Number.same_iff]
  have apart (number : a.isNumber = true ∨ b.isNumber = true) : ¬ a.Respelled b := by
    rintro ⟨s, t, _, _, rfl, rfl, _⟩
    rcases number with number | number <;> cases number
  rcases (number?_cases left).2 with ⟨_, _, _, number⟩ | ⟨s, rfl, _⟩
  · simp [looseEq_of_isNumber left right (.inl number), apart (.inl number)]
  rcases (number?_cases right).2 with ⟨_, _, _, number⟩ | ⟨t, rfl, _⟩
  · simp [looseEq_of_isNumber left right (.inr number), apart (.inr number)]
  · rw [looseEq_text, beq_iff_eq]
    constructor
    · rintro rfl
      obtain rfl : m = n := Option.some.inj (left.symm.trans right)
      refine ⟨Number.same_iff.mpr (Number.compare?_self nan), ?_⟩
      rintro ⟨_, _, _, _, same, same', differ, _⟩
      cases same
      cases same'
      exact differ rfl
    · rintro ⟨equal, plain⟩
      refine Classical.byContradiction fun differ => plain ?_
      exact ⟨s, t, m, n, rfl, rfl, differ, left, right, equal⟩

end Numbers

/-! ### The order -/

/-- What can be ordered: two numbers, or two texts of which one is no numeral. -/
theorem order_eq_ok {o : Option Ordering} (ordered : a.order b = .ok o) :
    (∃ m n, a.number? = some m ∧ b.number? = some n ∧ o = m.compare? n) ∨
      ∃ s t, a = .text s ∧ b = .text t ∧ (a.number? = none ∨ b.number? = none) ∧
        o = some (textOrder s t) := by
  unfold order at ordered
  split at ordered
  · rename_i m n left right
    cases ordered
    exact .inl ⟨m, n, left, right, rfl⟩
  · rename_i missing
    split at ordered
    · rename_i s t
      cases ordered
      refine .inr ⟨s, t, rfl, rfl, ?_, rfl⟩
      cases left : (text s).number? with
      | none => exact .inl rfl
      | some m =>
        cases right : (text t).number? with
        | none => exact .inr rfl
        | some n => exact (missing m n left right).elim
    · cases ordered

theorem order_swap {o : Option Ordering} (ordered : a.order b = .ok o) :
    b.order a = .ok (o.map Ordering.swap) := by
  rcases order_eq_ok ordered with ⟨m, n, left, right, rfl⟩ | ⟨s, t, rfl, rfl, missing, rfl⟩
  · unfold order
    rw [left, right, Number.compare?_swap]
  · unfold order
    rw [Option.map_some, textOrder_swap]
    rcases missing with missing | missing
    · rw [missing]
      cases number? (text t) <;> rfl
    · rw [missing]

/-- Values that can be ordered are loosely equal where neither is before the other, different
spellings of one number apart. -/
theorem looseEq_iff_order (left : ¬ a.ReadsNaN) (right : ¬ b.ReadsNaN) {o : Option Ordering}
    (ordered : a.order b = .ok o) :
    ∃ x, o = some x ∧ (a.looseEq b = true ↔ x = .eq ∧ ¬ a.Respelled b) ∧
      (a.Respelled b → x = .eq) := by
  rcases order_eq_ok ordered with ⟨m, n, first, second, rfl⟩ | ⟨s, t, rfl, rfl, missing, rfl⟩
  · have nan : m ≠ .float .nan := fun same => left (first.trans (congrArg some same))
    have nan' : n ≠ .float .nan := fun same => right (second.trans (congrArg some same))
    obtain ⟨x, compared⟩ := Number.exists_compare? nan nan'
    refine ⟨x, compared, ?_, ?_⟩
    · rw [looseEq_iff_of_numbers first second nan, compared, Option.some.injEq]
    · rintro ⟨_, _, m', n', _, _, _, first', second', equal⟩
      cases first.symm.trans first'
      cases second.symm.trans second'
      exact Option.some.inj (compared.symm.trans (Number.same_iff.mp equal))
  · have plain : ¬ (text s).Respelled (text t) := by
      rintro ⟨_, _, m, n, _, _, _, first, second, _⟩
      rcases missing with missing | missing
      · cases missing.symm.trans first
      · cases missing.symm.trans second
    refine ⟨_, rfl, ?_, fun respelled => absurd respelled plain⟩
    rw [looseEq_text, beq_iff_eq, textOrder_eq_iff]
    exact (and_iff_left plain).symm

/-! ### The relations -/

theorem relate_order {o : Ordering} (ordered : a.order b = .ok (some o)) :
    a.relate .lt b = .ok (o == .lt) ∧ a.relate .le b = .ok (o != .gt) ∧
      a.relate .gt b = .ok (o == .gt) ∧ a.relate .ge b = .ok (o != .lt) := by
  simp only [relate, ordered]
  exact ⟨rfl, rfl, rfl, rfl⟩

theorem relate_total {o : Option Ordering} (ordered : a.order b = .ok o) (r : Relation) :
    ∃ held, a.relate r b = .ok held := by
  cases r <;> simp [relate, ordered, Except.map]

/-- Of values that can be ordered, exactly one of less, loosely equal and greater holds, and at most
means less or equal. Of two spellings of one number none of the three holds, though each is at most
the other. The relations of the values the other way round are the converse ones. -/
theorem relate_trichotomy (left : ¬ a.ReadsNaN) (right : ¬ b.ReadsNaN)
    (ordered : ∀ r, ∃ held, a.relate r b = .ok held) :
    let holds (r : Relation) : Prop := a.relate r b = .ok true
    (¬ a.Respelled b →
      (holds .lt ∧ ¬ holds .eq ∧ ¬ holds .gt ∨ ¬ holds .lt ∧ holds .eq ∧ ¬ holds .gt ∨
        ¬ holds .lt ∧ ¬ holds .eq ∧ holds .gt) ∧
      (holds .le ↔ holds .lt ∨ holds .eq) ∧ (holds .ge ↔ holds .gt ∨ holds .eq)) ∧
    (a.Respelled b →
      ¬ holds .lt ∧ ¬ holds .eq ∧ ¬ holds .gt ∧ holds .le ∧ holds .ge) ∧
    b.relate .gt a = a.relate .lt b ∧ b.relate .lt a = a.relate .gt b ∧
      b.relate .ge a = a.relate .le b ∧ b.relate .le a = a.relate .ge b := by
  intro holds
  obtain ⟨held, less⟩ := ordered .lt
  obtain ⟨o, compared, _⟩ := map_eq_ok.mp less
  obtain ⟨x, rfl, equal, respelled⟩ := looseEq_iff_order left right compared
  obtain ⟨lt, le, gt, ge⟩ := relate_order compared
  obtain ⟨lt', le', gt', ge'⟩ := relate_order (order_swap compared)
  have eq : holds .eq ↔ x = .eq ∧ ¬ a.Respelled b := by
    rw [← equal]
    exact ⟨Except.ok.inj, congrArg Except.ok⟩
  simp only [holds, lt, le, gt, ge, lt', le', gt', ge'] at eq ⊢
  refine ⟨fun plain => ?_, fun twice => ?_, ?_⟩
  · cases x <;> simp [eq, plain]
  · simp [eq, respelled twice, twice]
  · cases x <;> exact ⟨rfl, rfl, rfl, rfl⟩

/-- Five is less than the numeral of a larger fraction; ten is spelled in two ways. -/
theorem relate_trichotomy_spellings :
    (relate .lt (.scalar (.int 5)) (.text "1_0.5".toList) = .ok true ∧
      relate .eq (.scalar (.int 5)) (.text "1_0.5".toList) ≠ .ok true ∧
      relate .gt (.scalar (.int 5)) (.text "1_0.5".toList) ≠ .ok true) ∧
    relate .lt (.text "10".toList) (.text "1e1".toList) ≠ .ok true ∧
      relate .eq (.text "10".toList) (.text "1e1".toList) ≠ .ok true ∧
      relate .gt (.text "10".toList) (.text "1e1".toList) ≠ .ok true ∧
      relate .le (.text "10".toList) (.text "1e1".toList) = .ok true := by
  constructor
  · have five : number? (.scalar (.int 5)) = some (.int 5) := rfl
    have fraction : number? (.text "1_0.5".toList) =
        some (.float (.finite false 5910974510923776 (-49))) := by decide +kernel
    have compared : order (.scalar (.int 5)) (.text "1_0.5".toList) = .ok (some .lt) := by
      unfold order
      rw [five, fraction]
      rfl
    have plain : ¬ Respelled (.scalar (.int 5)) (.text "1_0.5".toList) := by
      rintro ⟨_, _, _, _, same, _⟩
      cases same
    have less := (relate_order compared).1
    obtain ⟨⟨_, equal, more⟩ | ⟨other, _⟩ | ⟨other, _⟩, _⟩ :=
      (relate_trichotomy (not_readsNaN five nofun) (not_readsNaN fraction nofun)
        (relate_total compared)).1 plain
    · exact ⟨less, equal, more⟩
    · exact absurd less other
    · exact absurd less other
  · have ten : number? (.text "10".toList) = some (.int 10) := by decide +kernel
    have float : number? (.text "1e1".toList) =
        some (.float (.finite false 5629499534213120 (-49))) := by decide +kernel
    have compared : order (.text "10".toList) (.text "1e1".toList) = .ok (some .eq) := by
      unfold order
      rw [ten, float]
      rfl
    have twice : Respelled (.text "10".toList) (.text "1e1".toList) :=
      ⟨_, _, _, _, rfl, rfl, by decide, ten, float, rfl⟩
    obtain ⟨less, equal, more, atMost, _⟩ :=
      (relate_trichotomy (not_readsNaN ten nofun) (not_readsNaN float nofun)
        (relate_total compared)).2.1 twice
    exact ⟨less, equal, more, atMost⟩

/-- The numerals `1` and `1.0` are at most each other, and neither less nor equal. -/
theorem spellings_neither_less_nor_equal :
    ¬ ∀ a b : Value, ¬ a.ReadsNaN → ¬ b.ReadsNaN →
      (∀ r, ∃ held, a.relate r b = .ok held) →
      let holds (r : Relation) : Prop := a.relate r b = .ok true
      (holds .lt ∧ ¬ holds .eq ∧ ¬ holds .gt ∨ ¬ holds .lt ∧ holds .eq ∧ ¬ holds .gt ∨
        ¬ holds .lt ∧ ¬ holds .eq ∧ holds .gt) ∧
      (holds .le ↔ holds .lt ∨ holds .eq) := by
  intro claim
  have one : number? (.text "1".toList) = some (.int 1) := by decide +kernel
  have float : number? (.text "1.0".toList) =
      some (.float (.finite false 4503599627370496 (-52))) := by decide +kernel
  have compared : order (.text "1".toList) (.text "1.0".toList) = .ok (some .eq) := by
    unfold order
    rw [one, float]
    rfl
  obtain ⟨less, atMost, _⟩ := relate_order compared
  rcases (claim _ _ (not_readsNaN one nofun) (not_readsNaN float nofun)
    (relate_total compared)).2.mp atMost with held | held
  · cases less.symm.trans held
  · cases held

end Value

end ChatCommands
