import Mathlib.Data.List.Basic
import ChatCommands.Proofs.Text.Lower
import ChatCommands.Proofs.Text.Strip

/-!
Upper case is stable, and it leaves no white space at the ends of a text that had none there.

What a character becomes is never empty, is left alone by a second mapping, and is white space where
the character is.
-/

namespace ChatCommands.Text

theorem stable_upperRuns : Stable upperRuns := by
  constructor <;> decide +kernel

/-- No character with a long form is in the image of a run. -/
theorem upperRuns_single : (upperRuns.all fun r => upperLong.all fun l =>
    r.imageAvoids l.1 l.1) = true := by
  decide +kernel

/-- Whether upper case leaves a character alone. -/
def IsHigh (c : Char) : Prop :=
  mapCase upperLong upperRuns c = [c]

instance (c : Char) : Decidable (IsHigh c) :=
  inferInstanceAs (Decidable (_ = _))

theorem upperLong_high : ∀ l ∈ upperLong, isBlank (Char.ofNat l.1) = false ∧ l.2 ≠ [] ∧
    ∀ n ∈ l.2, IsHigh (Char.ofNat n) ∧ isBlank (Char.ofNat n) = false := by
  decide +kernel

theorem isHigh_of_uncovered {c : Char} (long : upperLong.lookup c.toNat = none)
    (none : ∀ r ∈ upperRuns, ¬ r.Covers c.toNat) : IsHigh c := by
  rw [IsHigh, mapCase, long]
  dsimp only
  rw [mapByRuns_eq_self none]

theorem isHigh_image {r : CaseRun} (member : r ∈ upperRuns) {c : Char}
    (covers : r.Covers c.toNat) : IsHigh (Char.ofNat (c.toNat + r.shift).toNat) ∧
      isBlank (Char.ofNat (c.toNat + r.shift).toNat) = false := by
  obtain ⟨d, same, visible, uncovered, first, last⟩ := stable_upperRuns.image member covers
  have single := List.all_eq_true.mp upperRuns_single r member
  have long : upperLong.lookup d.toNat = none := by
    refine List.lookup_eq_none_iff.mpr fun l inside => ?_
    have outside := CaseRun.outside_of_avoids (List.all_eq_true.mp single l inside) first last
    rw [bne_iff_ne]
    omega
  rw [same]
  exact ⟨isHigh_of_uncovered long uncovered, visible⟩

theorem raised (c : Char) : mapCase upperLong upperRuns c ≠ [] ∧
    ∀ d ∈ mapCase upperLong upperRuns c, IsHigh d ∧ isBlank d = isBlank c := by
  cases long : upperLong.lookup c.toNat with
  | some points =>
    obtain ⟨before, after, split, _⟩ := List.lookup_eq_some_iff.mp long
    have member : (c.toNat, points) ∈ upperLong := by
      rw [split]
      exact List.mem_append_right _ List.mem_cons_self
    obtain ⟨visible, nonempty, high⟩ := upperLong_high _ member
    rw [Char.ofNat_toNat] at visible
    rw [mapCase, long]
    refine ⟨by simpa using nonempty, fun d inside => ?_⟩
    obtain ⟨n, listed, rfl⟩ := List.mem_map.mp inside
    exact ⟨(high n listed).1, (high n listed).2.trans visible.symm⟩
  | none =>
    have single : mapCase upperLong upperRuns c = [mapByRuns upperRuns c] := by rw [mapCase, long]
    rw [single]
    refine ⟨List.cons_ne_nil _ _, List.forall_mem_singleton.mpr ?_⟩
    rcases mapByRuns_cases upperRuns c with ⟨r, member, covers, image⟩ | ⟨uncovered, same⟩
    · rw [image]
      have high := isHigh_image member covers
      exact ⟨high.1, high.2.trans (stable_upperRuns.visible_source member covers).symm⟩
    · rw [same]
      exact ⟨isHigh_of_uncovered long uncovered, rfl⟩

theorem upper_cons (c : Char) (t : Text) :
    upper (c :: t) = mapCase upperLong upperRuns c ++ upper t :=
  List.flatMap_cons

theorem upper_eq_self {t : Text} (high : ∀ c ∈ t, IsHigh c) : upper t = t := by
  induction t with
  | nil => rfl
  | cons c t ih =>
    obtain ⟨first, others⟩ := List.forall_mem_cons.mp high
    rw [upper_cons, first, ih others]
    rfl

theorem upper_upper (t : Text) : upper (upper t) = upper t := by
  refine upper_eq_self fun d member => ?_
  obtain ⟨c, _, inside⟩ := List.mem_flatMap.mp member
  exact ((raised c).2 d inside).1

theorem upper_eq_nil_iff {t : Text} : upper t = [] ↔ t = [] := by
  cases t with
  | nil => exact ⟨fun _ => rfl, fun _ => rfl⟩
  | cons c t => simp [upper_cons, (raised c).1]

theorem head_upper {t : Text} (visible : ∀ c ∈ t.head?, isBlank c = false) :
    ∀ d ∈ (upper t).head?, isBlank d = false := by
  cases t with
  | nil => exact visible
  | cons c t =>
    obtain ⟨nonempty, settled⟩ := raised c
    obtain ⟨e, more, image⟩ := List.exists_cons_of_ne_nil nonempty
    rw [upper_cons, image]
    rintro d ⟨⟩
    rw [(settled e (image ▸ List.mem_cons_self)).2]
    exact visible c rfl

theorem last_upper {t : Text} (visible : ∀ c ∈ t.getLast?, isBlank c = false) :
    ∀ d ∈ (upper t).getLast?, isBlank d = false := by
  rcases List.eq_nil_or_concat' t with rfl | ⟨front, c, rfl⟩
  · exact visible
  · intro d last
    have split : upper (front ++ [c]) = upper front ++ mapCase upperLong upperRuns c := by
      simp [upper]
    rw [split, List.getLast?_append_of_ne_nil _ (raised c).1] at last
    rw [((raised c).2 d (List.mem_of_getLast? last)).2]
    exact visible c (by simp)

/-- A trimmed text is trimmed in upper case as well. -/
theorem strip_upper_strip (t : Text) : strip (upper (strip t)) = upper (strip t) :=
  strip_of_ends (head_upper (head_strip t)) (last_upper (last_strip t))

end ChatCommands.Text
