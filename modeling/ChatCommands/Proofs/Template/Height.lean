import ChatCommands.Proofs.Template.Spans

/-!
The braces of a text by their positions, and how deep a position lies.

Nothing here is read off a scan. A character is escaped where a backslash stands before it that is
not escaped itself, and two braces belong together where the second is the first to bring the
count of open braces back to what it was before the other.
-/

namespace ChatCommands

namespace Text

/-- Whether the character at a position is escaped: before it stands a backslash that is not. -/
def escapedAt (t : Text) : Nat → Bool
  | 0 => false
  | p + 1 => decide (t[p]? = some '\\') && !escapedAt t p

/-- Whether a character stands at a position and is not escaped there. -/
def bareAt (t : Text) (c : Char) (p : Nat) : Bool :=
  decide (t[p]? = some c) && !t.escapedAt p

/-- How many more braces have opened than closed before a position. -/
def height (t : Text) (p : Nat) : Int :=
  ((List.range p).countP (t.bareAt '{') : Int) - (List.range p).countP (t.bareAt '}')

/-- Whether the braces are balanced: never have more of them closed than opened, and in the end
as many have. -/
structure Level (t : Text) : Prop where
  low : ∀ p ≤ t.length, 0 ≤ t.height p
  final : t.height t.length = 0

/-- Whether the brace at `p` is closed by the one at `q`. -/
structure Matched (t : Text) (p q : Nat) : Prop where
  opens : t.bareAt '{' p = true
  closes : t.bareAt '}' q = true
  order : p < q
  level : t.height (q + 1) = t.height p
  inside : ∀ r, p < r → r ≤ q → t.height p < t.height r

/-- Whether a brace closes nothing. -/
def Stray (t : Text) (q : Nat) : Prop :=
  t.bareAt '}' q = true ∧ ∀ p, ¬ t.Matched p q

/-- Whether a brace is left open. -/
def Unclosed (t : Text) (p : Nat) : Prop :=
  t.bareAt '{' p = true ∧ ∀ q, ¬ t.Matched p q

section Append

variable {s : Text} (t : Text)

theorem escapedAt_append_left {p : Nat} (inside : p ≤ s.length) :
    escapedAt (s ++ t) p = s.escapedAt p := by
  induction p with
  | zero => rfl
  | succ p ih =>
    have before : (s ++ t)[p]? = s[p]? := List.getElem?_append_left inside
    rw [escapedAt, escapedAt, before, ih (Nat.le_of_succ_le inside)]

theorem escapedAt_append_right (whole : s.escapedAt s.length = false) (p : Nat) :
    escapedAt (s ++ t) (s.length + p) = t.escapedAt p := by
  induction p with
  | zero => exact (escapedAt_append_left t (Nat.le_refl _)).trans whole
  | succ p ih =>
    have behind : (s ++ t)[s.length + p]? = t[p]? := by
      rw [List.getElem?_append_right (Nat.le_add_right _ _), Nat.add_sub_cancel_left]
    rw [← Nat.add_assoc, escapedAt, escapedAt, behind, ih]

/-- A last backslash escapes nothing where it would escape the next character. -/
theorem escapedAt_length (t : Text) : t.escapedAt t.length = t.dangling := by
  induction t using glyph_induction with
  | nil => rfl
  | lone => rfl
  | escaped d t ih =>
    have pair : escapedAt ['\\', d] 2 = false := by simp [escapedAt]
    have later := escapedAt_append_right t pair t.length
    rw [dangling_escaped, ← ih, ← later, Nat.add_comm]
    rfl
  | single c t hc ih =>
    have alone : escapedAt [c] 1 = false := by simp [escapedAt, hc]
    have later := escapedAt_append_right t alone t.length
    rw [dangling_single hc, ← ih, ← later, Nat.add_comm]
    rfl

theorem bareAt_append_left {p : Nat} (inside : p < s.length) (c : Char) :
    bareAt (s ++ t) c p = s.bareAt c p := by
  have before : (s ++ t)[p]? = s[p]? := List.getElem?_append_left inside
  rw [bareAt, bareAt, before, escapedAt_append_left t (Nat.le_of_lt inside)]

theorem height_append_left {p : Nat} (inside : p ≤ s.length) :
    height (s ++ t) p = s.height p := by
  have same (c : Char) :
      (List.range p).countP (bareAt (s ++ t) c) = (List.range p).countP (s.bareAt c) := by
    apply List.countP_congr
    intro q hq
    rw [bareAt_append_left t (Nat.lt_of_lt_of_le (List.mem_range.mp hq) inside)]
  rw [height, height, same, same]

variable (whole : s.dangling = false)
include whole

theorem bareAt_append_right (c : Char) (p : Nat) :
    bareAt (s ++ t) c (s.length + p) = t.bareAt c p := by
  have behind : (s ++ t)[s.length + p]? = t[p]? := by
    rw [List.getElem?_append_right (Nat.le_add_right _ _), Nat.add_sub_cancel_left]
  rw [bareAt, bareAt, behind,
    escapedAt_append_right t ((escapedAt_length s).trans whole)]

theorem height_append_right (p : Nat) :
    height (s ++ t) (s.length + p) = s.height s.length + t.height p := by
  have split (c : Char) : (List.range (s.length + p)).countP (bareAt (s ++ t) c) =
      (List.range s.length).countP (s.bareAt c) + (List.range p).countP (t.bareAt c) := by
    rw [List.range_add, List.countP_append, List.countP_map]
    congr 1
    · apply List.countP_congr
      intro q hq
      rw [bareAt_append_left t (List.mem_range.mp hq)]
    · apply List.countP_congr
      intro q _
      rw [Function.comp_apply, bareAt_append_right t whole]
  rw [height, height, height, split, split]
  omega

/-- The positions of a bare character in two texts, one behind the other. -/
theorem bare_positions_append (c : Char) :
    (List.range (s ++ t).length).filter (bareAt (s ++ t) c) =
      (List.range s.length).filter (s.bareAt c) ++
        ((List.range t.length).filter (t.bareAt c)).map (s.length + ·) := by
  rw [List.length_append, List.range_add, List.filter_append, List.filter_map]
  congr 1
  · apply List.filter_congr
    intro p hp
    exact bareAt_append_left t (List.mem_range.mp hp) c
  · congr 1
    apply List.filter_congr
    intro p _
    exact bareAt_append_right t whole c p

end Append

@[simp] theorem height_zero (t : Text) : t.height 0 = 0 := rfl

theorem bareAt_lt {t : Text} {c : Char} {p : Nat} (h : t.bareAt c p = true) : p < t.length := by
  simp only [bareAt, Bool.and_eq_true, decide_eq_true_eq] at h
  exact (List.getElem?_eq_some_iff.mp h.1).1

theorem bareAt_unique {t : Text} {c d : Char} {p : Nat} (hc : t.bareAt c p = true)
    (hd : t.bareAt d p = true) : c = d := by
  simp only [bareAt, Bool.and_eq_true, decide_eq_true_eq] at hc hd
  exact Option.some.inj (hc.1.symm.trans hd.1)

theorem bareAt_single {c d : Char} (other : c ≠ d) (p : Nat) : bareAt [c] d p = false := by
  cases p <;> simp [bareAt, other]

theorem bareAt_escape {c : Char} (hc : c ≠ '\\') (d : Char) (p : Nat) :
    bareAt ['\\', d] c p = false := by
  rcases p with _ | _ | p <;> simp [bareAt, escapedAt, hc.symm]

/-- What a position adds to the height. -/
theorem height_succ (t : Text) (p : Nat) :
    t.height (p + 1) =
      t.height p + (if t.bareAt '{' p then 1 else if t.bareAt '}' p then -1 else 0) := by
  have step (c : Char) : (List.range (p + 1)).countP (t.bareAt c) =
      (List.range p).countP (t.bareAt c) + if t.bareAt c p then 1 else 0 := by
    rw [List.range_succ, List.countP_append, List.countP_singleton]
  have apart : ¬ (t.bareAt '{' p = true ∧ t.bareAt '}' p = true) := fun ⟨ho, hc⟩ =>
    absurd (bareAt_unique ho hc) (by decide)
  rw [height, height, step, step]
  split <;> split <;> simp_all <;> omega

theorem height_open {t : Text} {p : Nat} (h : t.bareAt '{' p = true) :
    t.height (p + 1) = t.height p + 1 := by
  rw [height_succ, if_pos h]

theorem height_close {t : Text} {p : Nat} (h : t.bareAt '}' p = true) :
    t.height (p + 1) = t.height p - 1 := by
  have other : ¬ t.bareAt '{' p = true := fun ho => absurd (bareAt_unique ho h) (by decide)
  rw [height_succ, if_neg other, if_pos h]
  rfl

theorem opens_of_height_lt {t : Text} {p : Nat} (h : t.height p < t.height (p + 1)) :
    t.bareAt '{' p = true := by
  rw [height_succ] at h
  split at h
  · assumption
  · split at h <;> omega

theorem closes_of_height_lt {t : Text} {p : Nat} (h : t.height (p + 1) < t.height p) :
    t.bareAt '}' p = true := by
  rw [height_succ] at h
  split at h
  · omega
  · split at h
    · assumption
    · omega

/-- A closing brace closes another where the height behind it is one that the text starts below. -/
theorem exists_matched_open {t : Text} {q : Nat} (closes : t.bareAt '}' q = true)
    (low : 0 ≤ t.height (q + 1)) : ∃ p, t.Matched p q := by
  -- Go back from the brace to the last position that lies as low as the one behind it.
  have back (k : Nat) (inside : k ≤ q)
      (above : ∀ r, k ≤ r → r ≤ q → t.height (q + 1) < t.height r) : ∃ p, t.Matched p q := by
    induction k with
    | zero =>
      have first := above 0 (Nat.le_refl 0) inside
      rw [height_zero] at first
      omega
    | succ k ih =>
      by_cases high : t.height (q + 1) < t.height k
      · refine ih (Nat.le_of_succ_le inside) fun r from_k to_q => ?_
        rcases Nat.eq_or_lt_of_le from_k with rfl | later
        · exact high
        · exact above r later to_q
      · have rise := above (k + 1) (Nat.le_refl _) inside
        have opens : t.bareAt '{' k = true := opens_of_height_lt (by omega)
        have step := height_open opens
        exact ⟨k, opens, closes, inside, by omega, fun r later to_q => by
          have := above r later to_q
          omega⟩
  have fall := height_close closes
  refine back q (Nat.le_refl q) fun r from_q to_q => ?_
  obtain rfl : r = q := Nat.le_antisymm to_q from_q
  omega

/-- An opening brace is closed where the text comes back to the height in front of it. -/
theorem exists_matched_close {t : Text} {p r : Nat} (opens : t.bareAt '{' p = true)
    (later : p < r) (back : t.height r ≤ t.height p) : ∃ q, t.Matched p q := by
  induction r using Nat.strongRecOn with
  | ind r ih =>
    by_cases earlier : ∃ k < r, p < k ∧ t.height k ≤ t.height p
    · obtain ⟨k, before, behind, low⟩ := earlier
      exact ih k before behind low
    · have above (k : Nat) (behind : p < k) (before : k < r) : t.height p < t.height k := by
        by_cases low : t.height k ≤ t.height p
        · exact absurd ⟨k, before, behind, low⟩ earlier
        · omega
      have step := height_open opens
      obtain ⟨q, rfl⟩ : ∃ q, r = q + 1 := ⟨r - 1, by omega⟩
      have order : p < q := by
        rcases Nat.eq_or_lt_of_le (Nat.le_of_lt_succ later) with rfl | order
        · omega
        · exact order
      have high := above q order (Nat.lt_succ_self q)
      have closes : t.bareAt '}' q = true := closes_of_height_lt (by omega)
      have fall := height_close closes
      exact ⟨q, opens, closes, order, by omega, fun k behind to_q =>
        above k behind (Nat.lt_succ_of_le to_q)⟩

theorem height_cons {c : Char} (hc : c ≠ '\\') (t : Text) (p : Nat) :
    height (c :: t) (p + 1) = height [c] 1 + t.height p := by
  have behind := height_append_right t ((dangling_single hc []).trans dangling_nil) p
  rw [Nat.add_comm p]
  exact behind

theorem height_cons_open (t : Text) (p : Nat) : height ('{' :: t) (p + 1) = 1 + t.height p :=
  height_cons (by decide) t p

theorem height_cons_close (t : Text) (p : Nat) : height ('}' :: t) (p + 1) = -1 + t.height p :=
  height_cons (by decide) t p

namespace Level

theorem of_flat {t : Text} (opens : ∀ p, t.bareAt '{' p = false)
    (closes : ∀ p, t.bareAt '}' p = false) : t.Level := by
  have zero (p : Nat) : t.height p = 0 := by
    induction p with
    | zero => rfl
    | succ p ih => rw [height_succ, ih, opens, closes]; rfl
  exact ⟨fun p _ => Int.le_of_eq (zero p).symm, zero _⟩

theorem append {s t : Text} (whole : s.dangling = false) (hs : s.Level) (ht : t.Level) :
    (s ++ t).Level := by
  constructor
  · intro p inside
    by_cases first : p ≤ s.length
    · rw [height_append_left t first]
      exact hs.low p first
    · obtain ⟨k, rfl⟩ := Nat.exists_eq_add_of_le (Nat.le_of_not_le first)
      rw [height_append_right t whole, hs.final, Int.zero_add]
      rw [List.length_append] at inside
      exact ht.low k (by omega)
  · rw [List.length_append, height_append_right t whole, hs.final, ht.final]
    rfl

theorem braced {inner : Text} (whole : inner.dangling = false) (h : inner.Level) :
    (Text.braced inner).Level := by
  have last : (inner ++ ['}']).height (inner.length + 1) = -1 := by
    rw [height_append_right _ whole, h.final, height_cons_close]
    rfl
  constructor
  · rintro (_ | p) inside
    · exact Int.le_refl 0
    · rw [length_braced] at inside
      rw [Text.braced, height_cons_open]
      by_cases first : p ≤ inner.length
      · have low := h.low p first
        rw [height_append_left _ first]
        omega
      · obtain rfl : p = inner.length + 1 := by omega
        omega
  · rw [length_braced, Text.braced, height_cons_open, last]
    rfl

theorem single {c : Char} (ho : c ≠ '{') (hx : c ≠ '}') : Level [c] :=
  .of_flat (bareAt_single ho) (bareAt_single hx)

theorem escape (d : Char) : Level ['\\', d] :=
  .of_flat (bareAt_escape (by decide) d) (bareAt_escape (by decide) d)

end Level

end Text

theorem Closed.level {t : Text} (h : Closed t) : t.Level := by
  induction h with
  | nil => exact .of_flat (fun _ => rfl) fun _ => rfl
  | @plain c t hc ho hx _ ih =>
    exact .append (s := [c]) ((Text.dangling_single hc []).trans Text.dangling_nil)
      (.single ho hx) ih
  | @escaped d t _ ih => exact .append (s := ['\\', d]) (Text.dangling_escaped d []) (.escape d) ih
  | @braced inner t hi _ ih_inner ih =>
    have parts : '{' :: (inner ++ '}' :: t) = Text.braced inner ++ t := by simp [Text.braced]
    rw [parts]
    exact .append hi.span.whole (.braced hi.whole ih_inner) ih

theorem Balanced.level {t : Text} (h : Balanced t) : t.Level := by
  obtain ⟨s, hs, rfl | rfl⟩ := h
  · exact hs.level
  · exact .append hs.whole hs.level (.single (by decide) (by decide))

/-- The two braces of a span belong together, whatever stands around it. -/
theorem Closed.matched {inner : Text} (h : Closed inner) {front : Text}
    (whole : front.dangling = false) (rest : Text) :
    Text.Matched (front ++ (Text.braced inner ++ rest)) front.length
      (front.length + (inner.length + 1)) := by
  have parts : Text.braced inner ++ rest = '{' :: (inner ++ '}' :: rest) := by simp [Text.braced]
  have start := Text.height_append_left (s := front) ('{' :: (inner ++ '}' :: rest))
    (Nat.le_refl _)
  rw [parts]
  constructor
  · exact Text.bareAt_append_right _ whole '{' 0
  · have first := Text.bareAt_append_right (s := ['{']) (inner ++ '}' :: rest) rfl '}' inner.length
    rw [Text.bareAt_append_right _ whole, Nat.add_comm]
    exact first.trans (Text.bareAt_append_right _ h.whole '}' 0)
  · omega
  · rw [Nat.add_assoc, Text.height_append_right _ whole, Text.height_cons_open,
      Text.height_append_right _ h.whole, h.level.final, Text.height_cons_close, start,
      Text.height_zero]
    omega
  · intro r behind before
    obtain ⟨k, rfl⟩ : ∃ k, r = front.length + (k + 1) := ⟨r - front.length - 1, by omega⟩
    have inside : k ≤ inner.length := by omega
    have low := h.level.low k inside
    rw [Text.height_append_right _ whole, Text.height_cons_open, Text.height_append_left _ inside,
      start]
    omega

end ChatCommands
