import Mathlib
import ChatCommands.Proofs.Json.Distinct
import ChatCommands.Proofs.Number.Order
import ChatCommands.Value.Compare

/-!
The two equalities of the condition language.

Both are symmetric, and values that are strictly equal are loosely equal. Symmetry goes through
arrays item by item and through objects field by field; there it rests on the names being distinct,
so that as many fields on both sides, each of one side found on the other, are all of them.
-/

namespace ChatCommands

/-! ### Scalars -/

namespace Scalar

theorem same_comm (a b : Scalar) : a.same b = b.same a := by
  cases a with
  | null => cases b <;> rfl
  | text s =>
    cases b with
    | text t => exact Bool.beq_comm
    | _ => rfl
  | _ =>
    cases b with
    | null => rfl
    | text t => rfl
    | _ => exact Number.same_comm ..

theorem same_of_numeric? {a b : Scalar} {m n : Number} (left : a.numeric? = some m)
    (right : b.numeric? = some n) : a.same b = m.same n := by
  unfold same
  split
  · cases left
  · cases left
  · rw [left, right]

theorem same_text {a : Scalar} {m : Number} (numeric : a.numeric? = some m) (t : Text) :
    a.same (.text t) = false := by
  cases a with
  | text s => cases numeric
  | _ => rfl

theorem sameInside_comm (a b : Scalar) : a.sameInside b = b.sameInside a := by
  rw [sameInside, sameInside, same_comm, Bool.beq_comm]

end Scalar

/-! ### Values inside a container -/

namespace Json

theorem sameFields_iff {xs ys : List (Text × Json)} : sameFields xs ys = true ↔
    ∀ field ∈ xs, ∃ y, ys.lookup field.1 = some y ∧ sameInside field.2 y = true := by
  induction xs with
  | nil => simp [sameFields]
  | cons field xs ih =>
    obtain ⟨k, x⟩ := field
    rw [sameFields, Bool.and_eq_true, ih, List.forall_mem_cons]
    refine and_congr_left fun _ => ?_
    cases ys.lookup k <;> simp

/-- As many fields on both sides, with distinct names: if each field of one side is found on the
other, then the other way round as well. -/
theorem sameFields_symm {xs ys : List (Text × Json)} (distinct : (xs.map Prod.fst).Nodup)
    (distinct' : (ys.map Prod.fst).Nodup) (length : xs.length = ys.length)
    (symm : ∀ f ∈ xs, ∀ g ∈ ys, sameInside f.2 g.2 = true → sameInside g.2 f.2 = true)
    (same : sameFields xs ys = true) : sameFields ys xs = true := by
  rw [sameFields_iff] at same ⊢
  have found : xs.map Prod.fst ⊆ ys.map Prod.fst := by
    intro k known
    obtain ⟨f, member, rfl⟩ := List.mem_map.mp known
    obtain ⟨y, there, _⟩ := same f member
    exact List.mem_map.mpr ⟨_, mem_of_lookup there, rfl⟩
  have names : (xs.map Prod.fst).Perm (ys.map Prod.fst) :=
    (List.subperm_of_subset distinct found).perm_of_length_le (by simp [length])
  intro g member
  obtain ⟨f, here, name⟩ := List.mem_map.mp (names.symm.subset (List.mem_map_of_mem member))
  obtain ⟨y, there, equal⟩ := same f here
  rw [name, lookup_of_mem distinct' member] at there
  cases there
  exact ⟨f.2, name ▸ lookup_of_mem distinct here, symm f here g member equal⟩

mutual
theorem sameInside_symm : ∀ {x y : Json}, x.Distinct → y.Distinct →
    sameInside x y = true → sameInside y x = true
  | .scalar a, .scalar b, _, _, same => by
    rw [sameInside] at same ⊢
    rwa [Scalar.sameInside_comm]
  | .array xs, .array ys, left, right, same => by
    rw [sameInside] at same ⊢
    exact sameItems_symm left right same
  | .object xs, .object ys, left, right, same => by
    rw [sameInside, Bool.and_eq_true, beq_iff_eq] at same ⊢
    refine ⟨same.1.symm, sameFields_symm left.1 right.1 same.1 (fun f member g other => ?_) same.2⟩
    exact fieldInside_symm left.2 f member (distinctFields_iff.mp right.2 g other)
  | .scalar _, .array _, _, _, same => by cases same
  | .scalar _, .object _, _, _, same => by cases same
  | .array _, .scalar _, _, _, same => by cases same
  | .array _, .object _, _, _, same => by cases same
  | .object _, .scalar _, _, _, same => by cases same
  | .object _, .array _, _, _, same => by cases same

theorem sameItems_symm : ∀ {xs ys : List Json}, DistinctItems xs → DistinctItems ys →
    sameItems xs ys = true → sameItems ys xs = true
  | [], [], _, _, _ => rfl
  | x :: xs, y :: ys, left, right, same => by
    rw [sameItems, Bool.and_eq_true] at same ⊢
    exact ⟨sameInside_symm left.1 right.1 same.1, sameItems_symm left.2 right.2 same.2⟩
  | [], _ :: _, _, _, same => by cases same
  | _ :: _, [], _, _, same => by cases same

/-- The value of a field, against any other value. -/
theorem fieldInside_symm : ∀ {xs : List (Text × Json)}, DistinctFields xs →
    ∀ f ∈ xs, ∀ {y : Json}, y.Distinct → sameInside f.2 y = true → sameInside y f.2 = true
  | (_, _) :: _, left, _, .head _, _, right, same => sameInside_symm left.1 right same
  | (_, _) :: _, left, f, .tail _ member, _, right, same =>
    fieldInside_symm left.2 f member right same
end

theorem same_comm {x y : Json} (left : x.Distinct) (right : y.Distinct) : x.same y = y.same x := by
  have inside : sameInside x y = sameInside y x :=
    Bool.eq_iff_iff.mpr ⟨sameInside_symm left right, sameInside_symm right left⟩
  cases x with
  | scalar a =>
    cases y with
    | scalar b => exact Scalar.same_comm a b
    | _ => exact inside
  | array xs => cases y <;> exact inside
  | object xs => cases y <;> exact inside

end Json

/-! ### Values -/

/-- Whether the fields of every object in an item have distinct names. -/
def Item.Distinct : Item → Prop
  | .json j => j.Distinct
  | .detail _ => True

/-- Whether the fields of every object in a value have distinct names. -/
def Value.Distinct : Value → Prop
  | .json j => j.Distinct
  | .tuple items => ∀ i ∈ items, i.Distinct
  | .record _ => True

theorem Item.same_comm {x y : Item} (left : x.Distinct) (right : y.Distinct) :
    x.same y = y.same x := by
  cases x with
  | json a =>
    cases y with
    | json b =>
      exact Bool.eq_iff_iff.mpr ⟨Json.sameInside_symm left right, Json.sameInside_symm right left⟩
    | detail e => rfl
  | detail d =>
    cases y with
    | json b => rfl
    | detail e => exact Bool.beq_comm

namespace Value

variable {a b : Value}

theorem same_tuple_comm {xs ys : List Item} (left : ∀ i ∈ xs, i.Distinct)
    (right : ∀ i ∈ ys, i.Distinct) :
    same (.tuple xs) (.tuple ys) = same (.tuple ys) (.tuple xs) := by
  induction xs generalizing ys with
  | nil => cases ys <;> rfl
  | cons x xs ih =>
    cases ys with
    | nil => rfl
    | cons y ys =>
      obtain ⟨here, later⟩ := List.forall_mem_cons.mp left
      obtain ⟨here', later'⟩ := List.forall_mem_cons.mp right
      have rest := ih later later'
      simp only [same] at rest
      simp only [same, List.length_cons, List.zip_cons_cons, List.all_cons]
      rw [Item.same_comm here here']
      cases y.same x with
      | false => simp
      | true => simpa using rest

theorem same_comm (left : a.Distinct) (right : b.Distinct) : a.same b = b.same a := by
  cases a with
  | json x =>
    cases b with
    | json y => exact Json.same_comm left right
    | tuple ys => rfl
    | record r => rfl
  | tuple xs =>
    cases b with
    | json y => rfl
    | tuple ys => exact same_tuple_comm left right
    | record r => rfl
  | record r =>
    cases b with
    | json y => rfl
    | tuple ys => rfl
    | record s => exact Bool.beq_comm

theorem distinct_asTruth (distinct : a.Distinct) : a.asTruth.Distinct := by
  cases a with
  | json x =>
    cases x with
    | scalar s => trivial
    | array items => exact distinct
    | object fields => exact distinct
  | tuple items => exact distinct
  | record r => trivial

theorem looseEq_comm (left : a.Distinct) (right : b.Distinct) : a.looseEq b = b.looseEq a := by
  rw [looseEq, looseEq, Bool.or_comm b.isBool, Bool.or_comm b.isNumber, same_comm left right,
    same_comm (distinct_asTruth left) (distinct_asTruth right)]
  cases a.number? with
  | none => cases b.number? <;> rfl
  | some m =>
    cases b.number? with
    | none => rfl
    | some n =>
      dsimp only
      rw [Number.same_comm]

theorem strictEq_comm (left : a.Distinct) (right : b.Distinct) : a.strictEq b = b.strictEq a := by
  rw [strictEq, strictEq, bne_comm, Bool.and_comm (b.isBool || b.isNumber), same_comm left right,
    Bool.beq_comm (a := a.kind)]

/-- What strict equality asks for: booleans are equal to booleans only. -/
theorem same_of_strictEq (strict : a.strictEq b = true) :
    a.isBool = b.isBool ∧ a.same b = true := by
  rw [strictEq] at strict
  split at strict
  · cases strict
  · rename_i bools
    refine ⟨by simpa using bools, ?_⟩
    split at strict
    · exact strict
    · exact (Bool.and_eq_true_iff.mp strict).2

section Numbers

variable {m n : Number}

/-- Numbers and texts alone are taken for numbers, never a boolean. -/
theorem number?_cases (number : a.number? = some m) : a.isBool = false ∧
    ((∃ s, a = .scalar s ∧ s.numeric? = some m ∧ a.isNumber = true) ∨
      ∃ t, a = .text t ∧ a.isNumber = false) := by
  cases a with
  | tuple items => cases number
  | record r => cases number
  | json j =>
    cases j with
    | array items => cases number
    | object fields => cases number
    | scalar s =>
      cases s with
      | null => cases number
      | bool b => cases number
      | int n => exact ⟨rfl, .inl ⟨_, rfl, number, rfl⟩⟩
      | float x => exact ⟨rfl, .inl ⟨_, rfl, number, rfl⟩⟩
      | text t => exact ⟨rfl, .inr ⟨t, rfl, rfl⟩⟩

theorem looseEq_text (s t : Text) : looseEq (.text s) (.text t) = (s == t) := rfl

theorem looseEq_of_isNumber (left : a.number? = some m) (right : b.number? = some n)
    (number : a.isNumber = true ∨ b.isNumber = true) : a.looseEq b = m.same n := by
  have neither : (a.isBool || b.isBool) = false := by
    rw [(number?_cases left).1, (number?_cases right).1, Bool.or_false]
  rw [looseEq, neither, if_neg Bool.false_ne_true, if_pos (Bool.or_eq_true _ _ ▸ number), left,
    right]

/-- A number and a text are never equal, whatever the text reads as. -/
theorem same_numbers (left : a.number? = some m) (right : b.number? = some n)
    (number : a.isNumber = true ∨ b.isNumber = true) (equal : a.same b = true) :
    m.same n = true := by
  rcases (number?_cases left).2 with ⟨s, rfl, numeric, _⟩ | ⟨s, rfl, text⟩
  · rcases (number?_cases right).2 with ⟨t, rfl, numeric', _⟩ | ⟨t, rfl, text'⟩
    · rw [← Scalar.same_of_numeric? numeric numeric']
      exact equal
    · cases (Scalar.same_text numeric t).symm.trans equal
  · rcases (number?_cases right).2 with ⟨t, rfl, numeric', _⟩ | ⟨t, rfl, text'⟩
    · cases ((Scalar.same_comm ..).trans (Scalar.same_text numeric' s)).symm.trans equal
    · rcases number with number | number
      · cases text.symm.trans number
      · cases text'.symm.trans number

end Numbers

theorem asTruth_of_isBool (bool : a.isBool = true) : a.asTruth = a := by
  cases a with
  | json x =>
    cases x with
    | scalar s =>
      cases s with
      | text t => cases bool
      | _ => rfl
    | array items => rfl
    | object fields => rfl
  | tuple items => rfl
  | record r => rfl

/-- Loose equality takes nothing away from equality, as long as it makes no text a boolean. -/
theorem looseEq_of_same (bools : a.isBool = b.isBool) (equal : a.same b = true) :
    a.looseEq b = true := by
  rw [looseEq, ← bools, Bool.or_self]
  by_cases bool : a.isBool = true
  · rwa [if_pos bool, asTruth_of_isBool bool, asTruth_of_isBool (bools ▸ bool)]
  · rw [if_neg bool]
    split
    · rename_i number
      cases left : a.number? with
      | none => exact equal
      | some m =>
        cases right : b.number? with
        | none => exact equal
        | some n => exact same_numbers left right (Bool.or_eq_true_iff.mp number) equal
    · exact equal

/-- Both equalities are symmetric, and strict equality implies loose equality. -/
theorem equality_laws (left : a.Distinct) (right : b.Distinct) :
    a.looseEq b = b.looseEq a ∧ a.strictEq b = b.strictEq a ∧
      (a.strictEq b = true → a.looseEq b = true) := by
  refine ⟨looseEq_comm left right, strictEq_comm left right, fun strict => ?_⟩
  obtain ⟨bools, equal⟩ := same_of_strictEq strict
  exact looseEq_of_same bools equal

/-- Two objects that were read, equal field by field in another order, where true counts as one. -/
theorem equality_laws_objects :
    let left : Json := .object [("a".toList, .array [.int 1, .null]), ("b".toList, .text ['x'])]
    let right : Json :=
      .object [("b".toList, .text ['x']), ("a".toList, .array [.scalar (.bool true), .null])]
    Json.read "\x7b\x22a\x22: [1, null], \x22b\x22: \x22x\x22\x7d".toList = .ok left ∧
      Json.read "\x7b\x22b\x22: \x22x\x22, \x22a\x22: [true, null]\x7d".toList = .ok right ∧
      strictEq (.json right) (.json left) = true ∧ strictEq (.json left) (.json right) = true ∧
      looseEq (.json left) (.json right) = true := by
  intro left right
  have first : Json.read "\x7b\x22a\x22: [1, null], \x22b\x22: \x22x\x22\x7d".toList =
      .ok left := by cbv
  have second : Json.read "\x7b\x22b\x22: \x22x\x22, \x22a\x22: [true, null]\x7d".toList =
      .ok right := by cbv
  obtain ⟨_, symmetric, implied⟩ := equality_laws (a := .json left) (b := .json right)
    (Json.read_distinct first) (Json.read_distinct second)
  have equal : strictEq (.json right) (.json left) = true := by cbv
  exact ⟨first, second, equal, symmetric.trans equal, implied (symmetric.trans equal)⟩

end Value

end ChatCommands
