import ChatCommands.Text.Blank
import ChatCommands.Text.Case

/-!
Lower case is stable, and it neither makes nor takes away white space.

The table decides both: no character in the image of a run is mapped again or is white space. Runs
that overlap their own image do so in steps of two, image and run lying on different parities.
-/

namespace ChatCommands.Text

namespace CaseRun

/-- Whether a run maps a code point. -/
def Covers (r : CaseRun) (n : Nat) : Prop :=
  r.first ≤ n ∧ n ≤ r.last ∧ (n - r.first) % r.step = 0

/-- Whether all code points of a run have the parity of the first. -/
def isEven (r : CaseRun) : Bool :=
  r.step % 2 == 0 || r.first == r.last

/-- The first and the last code point of the image of a run. -/
def imageFirst (r : CaseRun) : Nat := (r.first + r.shift).toNat

def imageLast (r : CaseRun) : Nat := (r.last + r.shift).toNat

/-- Whether the image of a run lies outside a range. -/
def imageAvoids (r : CaseRun) (low high : Nat) : Bool :=
  Nat.blt r.imageLast low || Nat.blt high r.imageFirst

/-- Whether the image of a run lies between the code points that a second one maps. -/
def imageApart (r q : CaseRun) : Bool :=
  r.imageAvoids q.first q.last ||
    r.isEven && q.step == 2 && (r.imageFirst + q.first) % 2 == 1

/-- Whether the image of a run is of characters only. -/
def isCharacters (r : CaseRun) : Bool :=
  Nat.ble (-r.shift).toNat r.first &&
    (Nat.blt r.imageLast 0xd800 || Nat.blt 0xdfff r.imageFirst && Nat.blt r.imageLast 0x110000)

variable {r q : CaseRun} {n : Nat}

theorem Covers.parity (h : r.Covers n) (even : r.isEven) : (n - r.first) % 2 = 0 := by
  obtain ⟨low, high, step⟩ := h
  rw [isEven, Bool.or_eq_true, beq_iff_eq, beq_iff_eq] at even
  rcases even with two | same
  · exact Nat.mod_eq_zero_of_dvd
      (Nat.dvd_trans (Nat.dvd_of_mod_eq_zero two) (Nat.dvd_of_mod_eq_zero step))
  · omega

/-- The image of a code point, as a natural number. -/
theorem Covers.image (h : r.Covers n) (characters : r.isCharacters) :
    ∃ m : Nat, (n + r.shift).toNat = m ∧ m + r.first = n + r.imageFirst ∧ r.imageFirst ≤ m ∧
      m ≤ r.imageLast ∧ (Char.ofNat m).toNat = m := by
  obtain ⟨first, last, _⟩ := h
  rw [isCharacters, Bool.and_eq_true, Bool.or_eq_true, Bool.and_eq_true, Nat.ble_eq, Nat.blt_eq,
    Nat.blt_eq, Nat.blt_eq] at characters
  unfold imageFirst imageLast at *
  refine ⟨_, rfl, by omega, by omega, by omega, ?_⟩
  have valid : (n + r.shift).toNat.isValidChar := by
    rw [Nat.isValidChar]
    omega
  rw [Char.ofNat, dif_pos valid]
  rfl

theorem outside_of_avoids {low high m : Nat} (avoids : r.imageAvoids low high)
    (first : r.imageFirst ≤ m) (last : m ≤ r.imageLast) : m < low ∨ high < m := by
  rw [imageAvoids, Bool.or_eq_true, Nat.blt_eq, Nat.blt_eq] at avoids
  omega

theorem Covers.not_covers (h : r.Covers n) (apart : r.imageApart q) {m : Nat}
    (image : m + r.first = n + r.imageFirst) (first : r.imageFirst ≤ m) (last : m ≤ r.imageLast) :
    ¬ q.Covers m := by
  rintro ⟨low, high, step⟩
  rw [imageApart, Bool.or_eq_true, Bool.and_eq_true, Bool.and_eq_true, beq_iff_eq,
    beq_iff_eq] at apart
  rcases apart with avoids | ⟨⟨even, two⟩, odd⟩
  · have := outside_of_avoids avoids first last
    omega
  · have parity := h.parity even
    have start := h.1
    rw [two] at step
    omega

end CaseRun

/-- Whether the characters that runs map are visible, and those that they map them to are visible
and not mapped again. -/
structure Stable (runs : List CaseRun) : Prop where
  characters : (runs.all fun r => r.isCharacters) = true
  apart : (runs.all fun r => runs.all fun q => r.imageApart q) = true
  visible : (runs.all fun r => blankRanges.all fun b =>
    r.imageAvoids b.1 b.2 && (Nat.blt r.last b.1 || Nat.blt b.2 r.first)) = true

theorem stable_lowerRuns : Stable lowerRuns := by
  constructor <;> decide +kernel

namespace Stable

variable {runs : List CaseRun} (stable : Stable runs) {r : CaseRun} (member : r ∈ runs) {c : Char}
  (covers : r.Covers c.toNat)
include stable member covers

theorem visible_source : isBlank c = false := by
  rw [Bool.eq_false_iff]
  intro blank
  obtain ⟨b, inside, low, high⟩ := inRanges_iff.mp blank
  have apart := List.all_eq_true.mp (List.all_eq_true.mp stable.visible r member) b inside
  rw [Bool.and_eq_true, Bool.or_eq_true, Nat.blt_eq, Nat.blt_eq] at apart
  have first := covers.1
  have last := covers.2.1
  omega

/-- The image of a character under a run is a visible character that no run maps. -/
theorem image : ∃ d : Char, Char.ofNat (c.toNat + r.shift).toNat = d ∧ isBlank d = false ∧
    (∀ q ∈ runs, ¬ q.Covers d.toNat) ∧ r.imageFirst ≤ d.toNat ∧ d.toNat ≤ r.imageLast := by
  obtain ⟨m, same, image, first, last, code⟩ :=
    covers.image (List.all_eq_true.mp stable.characters r member)
  refine ⟨Char.ofNat m, by rw [same], ?_, fun q inside => ?_, by omega, by omega⟩
  · rw [Bool.eq_false_iff]
    intro blank
    obtain ⟨b, inside, low, high⟩ := inRanges_iff.mp blank
    have apart := List.all_eq_true.mp (List.all_eq_true.mp stable.visible r member) b inside
    rw [Bool.and_eq_true] at apart
    have := CaseRun.outside_of_avoids apart.1 first last
    omega
  · have apart := List.all_eq_true.mp (List.all_eq_true.mp stable.apart r member) q inside
    rw [code]
    exact covers.not_covers apart image first last

end Stable

/-- Neither the capital sigma nor a character with a long form is in the image of a run. -/
theorem lowerRuns_single : (lowerRuns.all fun r =>
    r.imageAvoids 0x3a3 0x3a3 && r.imageAvoids 0x130 0x130) = true := by
  decide +kernel

theorem mapByRuns_cases (runs : List CaseRun) (c : Char) :
    (∃ r ∈ runs, r.Covers c.toNat ∧ mapByRuns runs c = Char.ofNat (c.toNat + r.shift).toNat) ∨
      (∀ r ∈ runs, ¬ r.Covers c.toNat) ∧ mapByRuns runs c = c := by
  have covers (r : CaseRun) : (decide (r.first ≤ c.toNat) && decide (c.toNat ≤ r.last) &&
      (c.toNat - r.first) % r.step == 0) = true ↔ r.Covers c.toNat := by
    rw [Bool.and_eq_true, Bool.and_eq_true, decide_eq_true_eq, decide_eq_true_eq, beq_iff_eq,
      CaseRun.Covers, and_assoc]
  unfold mapByRuns
  dsimp only
  split
  · rename_i r found
    have covered := (covers r).mp (by simpa using List.find?_some found)
    exact .inl ⟨r, List.mem_of_find?_eq_some found, covered, rfl⟩
  · rename_i none
    exact .inr ⟨fun r member h => List.find?_eq_none.mp none r member ((covers r).mpr h), rfl⟩

theorem mapByRuns_eq_self {runs : List CaseRun} {c : Char}
    (none : ∀ r ∈ runs, ¬ r.Covers c.toNat) : mapByRuns runs c = c := by
  rcases mapByRuns_cases runs c with ⟨r, member, covers, _⟩ | ⟨_, same⟩
  · exact absurd covers (none r member)
  · exact same

/-- Whether lower case leaves a character alone, wherever it stands. -/
def IsLow (c : Char) : Prop :=
  c ≠ 'Σ' ∧ mapCase lowerLong lowerRuns c = [c]

instance (c : Char) : Decidable (IsLow c) :=
  inferInstanceAs (Decidable (_ ∧ _))

theorem lookup_lowerLong {c : Char} (h : c.toNat ≠ 0x130) : lowerLong.lookup c.toNat = none := by
  rw [lowerLong, List.lookup_cons, beq_eq_false_iff_ne.mpr h]
  rfl

theorem isLow_of_uncovered {c : Char} (sigma : c.toNat ≠ 0x3a3) (long : c.toNat ≠ 0x130)
    (none : ∀ r ∈ lowerRuns, ¬ r.Covers c.toNat) : IsLow c := by
  refine ⟨fun same => sigma (by rw [same]; rfl), ?_⟩
  rw [mapCase, lookup_lowerLong long]
  dsimp only
  rw [mapByRuns_eq_self none]

theorem lowerAfter_eq_self {t : Text} (low : ∀ c ∈ t, IsLow c) (before : Text) :
    lowerAfter before t = t := by
  induction t generalizing before with
  | nil => rfl
  | cons c rest ih =>
    obtain ⟨⟨sigma, same⟩, others⟩ := List.forall_mem_cons.mp low
    rw [lowerAfter, if_neg sigma, same, ih others]
    rfl

/-- What a character becomes in a given place. -/
def lowered (before rest : Text) (c : Char) : Text :=
  if c = 'Σ' then [if nextIsCased before && !nextIsCased rest then 'ς' else 'σ']
  else mapCase lowerLong lowerRuns c

theorem lowerAfter_cons (before rest : Text) (c : Char) :
    lowerAfter before (c :: rest) = lowered before rest c ++ lowerAfter (c :: before) rest := rfl

/-- The image of a character under a run is left alone and is no white space. -/
theorem isLow_image {r : CaseRun} (member : r ∈ lowerRuns) {c : Char} (covers : r.Covers c.toNat) :
    IsLow (Char.ofNat (c.toNat + r.shift).toNat) ∧
      isBlank (Char.ofNat (c.toNat + r.shift).toNat) = false := by
  obtain ⟨d, same, visible, uncovered, first, last⟩ := stable_lowerRuns.image member covers
  have single := List.all_eq_true.mp lowerRuns_single r member
  rw [Bool.and_eq_true] at single
  have sigma := CaseRun.outside_of_avoids single.1 first last
  have long := CaseRun.outside_of_avoids single.2 first last
  rw [same]
  exact ⟨isLow_of_uncovered (by omega) (by omega) uncovered, visible⟩

/-- Whether a character that appears in lower case is left alone and as visible as `c`. -/
def Settles (c d : Char) : Prop :=
  IsLow d ∧ isBlank d = isBlank c

theorem settles_lowered (before rest : Text) (c : Char) :
    lowered before rest c ≠ [] ∧ ∀ d ∈ lowered before rest c, Settles c d := by
  unfold lowered
  split
  · rename_i sigma
    subst sigma
    refine ⟨List.cons_ne_nil _ _, List.forall_mem_singleton.mpr ?_⟩
    split <;> exact ⟨⟨by decide, by decide⟩, by decide⟩
  · rename_i sigma
    rw [mapCase]
    split
    -- The one character with a long image is the dotted capital I.
    · rename_i points long
      have code : c.toNat = 0x130 := by
        refine Decidable.byContradiction fun other => ?_
        rw [lookup_lowerLong other] at long
        cases long
      obtain rfl : c = '\u0130' := Char.toNat_inj.mp code
      cases long
      refine ⟨List.cons_ne_nil _ _, ?_⟩
      exact List.forall_mem_cons.mpr
        ⟨⟨by decide, by decide⟩, List.forall_mem_singleton.mpr ⟨by decide, by decide⟩⟩
    · rename_i none
      refine ⟨List.cons_ne_nil _ _, List.forall_mem_singleton.mpr ?_⟩
      rcases mapByRuns_cases lowerRuns c with ⟨r, member, covers, image⟩ | ⟨uncovered, same⟩
      · rw [image]
        have low := isLow_image member covers
        exact ⟨low.1, low.2.trans (stable_lowerRuns.visible_source member covers).symm⟩
      · rw [same]
        refine ⟨⟨sigma, ?_⟩, rfl⟩
        rw [mapCase, none]
        dsimp only
        rw [same]

theorem settles_lowerAfter {before t : Text} {d : Char} (member : d ∈ lowerAfter before t) :
    ∃ c ∈ t, Settles c d := by
  induction t generalizing before with
  | nil => cases member
  | cons c rest ih =>
    rw [lowerAfter_cons, List.mem_append] at member
    rcases member with here | later
    · exact ⟨c, List.mem_cons_self, (settles_lowered before rest c).2 d here⟩
    · obtain ⟨e, inside, settles⟩ := ih later
      exact ⟨e, List.mem_cons_of_mem _ inside, settles⟩

theorem settles_of_mem {t : Text} {c : Char} (member : c ∈ t) (before : Text) :
    ∃ d ∈ lowerAfter before t, Settles c d := by
  induction t generalizing before with
  | nil => cases member
  | cons e rest ih =>
    rw [lowerAfter_cons]
    rcases List.mem_cons.mp member with rfl | later
    · obtain ⟨some_image, settles⟩ := settles_lowered before rest c
      obtain ⟨d, inside⟩ := List.exists_mem_of_ne_nil _ some_image
      exact ⟨d, List.mem_append_left _ inside, settles d inside⟩
    · obtain ⟨d, inside, settles⟩ := ih later (e :: before)
      exact ⟨d, List.mem_append_right _ inside, settles⟩

theorem lower_lower (t : Text) : lower (lower t) = lower t := by
  refine lowerAfter_eq_self (fun d member => ?_) []
  obtain ⟨c, _, low, _⟩ := settles_lowerAfter member
  exact low

theorem lower_eq_nil_iff {t : Text} : lower t = [] ↔ t = [] := by
  constructor
  · intro empty
    refine List.eq_nil_iff_forall_not_mem.mpr fun c member => ?_
    obtain ⟨d, inside, _⟩ := settles_of_mem member []
    rw [lower] at empty
    rw [empty] at inside
    cases inside
  · rintro rfl
    rfl

theorem lower_visible_iff {t : Text} :
    (∀ d ∈ lower t, isBlank d = false) ↔ ∀ c ∈ t, isBlank c = false := by
  constructor
  · intro visible c member
    obtain ⟨d, inside, _, same⟩ := settles_of_mem member []
    rw [← same, visible d inside]
  · intro visible d member
    obtain ⟨c, inside, _, same⟩ := settles_lowerAfter member
    rw [same, visible c inside]

end ChatCommands.Text
