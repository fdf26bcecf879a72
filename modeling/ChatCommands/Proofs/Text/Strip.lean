import ChatCommands.Text.Blank

/-!
What trimming leaves: a text without white space at its ends, which is trimmed no further.

A text without any white space is the first word of every text that goes on with white space after
it.
-/

namespace ChatCommands.Text

theorem stripStart_eq_self {t : Text} (visible : ∀ c ∈ t.head?, isBlank c = false) :
    stripStart t = t := by
  cases t with
  | nil => rfl
  | cons c t =>
    have first : isBlank c = false := visible c rfl
    simp [stripStart, first]

theorem head_stripStart (t : Text) : ∀ c ∈ (stripStart t).head?, isBlank c = false := by
  intro c hc
  have := List.head?_dropWhile_not isBlank t
  simp only [stripStart, Option.mem_def] at hc
  simpa [hc] using this

theorem stripEnd_eq (t : Text) : stripEnd t = (stripStart t.reverse).reverse := rfl

theorem stripEnd_prefix (t : Text) : stripEnd t <+: t := by
  rw [stripEnd_eq, ← List.reverse_suffix, List.reverse_reverse]
  exact List.dropWhile_suffix isBlank

theorem head_strip (t : Text) : ∀ c ∈ (strip t).head?, isBlank c = false := by
  intro c hc
  obtain ⟨rest, split⟩ := stripEnd_prefix (stripStart t)
  apply head_stripStart t
  rw [← split, List.head?_append]
  change (strip t).head? = some c at hc
  simp [show stripEnd (stripStart t) = strip t from rfl, hc]

theorem last_strip (t : Text) : ∀ c ∈ (strip t).getLast?, isBlank c = false := by
  rw [strip, stripEnd_eq, List.getLast?_reverse]
  exact head_stripStart _

/-- A text without white space at its ends is not trimmed. -/
theorem strip_of_ends {t : Text} (first : ∀ c ∈ t.head?, isBlank c = false)
    (last : ∀ c ∈ t.getLast?, isBlank c = false) : strip t = t := by
  have ends : stripStart t.reverse = t.reverse := by
    refine stripStart_eq_self fun c hc => last c ?_
    rwa [List.head?_reverse] at hc
  rw [strip, stripStart_eq_self first, stripEnd_eq, ends, List.reverse_reverse]

theorem strip_strip (t : Text) : strip (strip t) = strip t :=
  strip_of_ends (head_strip t) (last_strip t)

theorem strip_of_visible {t : Text} (visible : ∀ c ∈ t, isBlank c = false) : strip t = t :=
  strip_of_ends (fun c first => visible c (List.mem_of_head? first)) fun c last =>
    visible c (List.mem_of_getLast? last)

theorem mem_dropWhile {p : Char → Bool} {c : Char} {t : Text} (keep : p c = false) (h : c ∈ t) :
    c ∈ t.dropWhile p := by
  rw [← List.takeWhile_append_dropWhile (p := p) (l := t), List.mem_append] at h
  rcases h with dropped | kept
  · cases keep.symm.trans (List.all_eq_true.mp List.all_takeWhile c dropped)
  · exact kept

theorem mem_strip {c : Char} {t : Text} (visible : isBlank c = false) (h : c ∈ t) :
    c ∈ strip t := by
  have start : c ∈ (stripStart t).reverse := List.mem_reverse.mpr (mem_dropWhile visible h)
  exact List.mem_reverse.mpr (mem_dropWhile visible start)

theorem blank_of_mem {c : Char} {t : Text} (visible : isBlank c = false) (h : c ∈ t) :
    blank t = false :=
  List.isEmpty_eq_false_iff.mpr (List.ne_nil_of_mem (mem_strip visible h))

theorem isBlank_of_blank {t : Text} (all : blank t = true) : ∀ c ∈ t, isBlank c = true := by
  intro c member
  cases visible : isBlank c with
  | true => rfl
  | false => cases all.symm.trans (blank_of_mem visible member)

theorem words_cons_of_blank {c : Char} (blank : isBlank c = true) (rest : Text) :
    words (c :: rest) = words rest := by
  have cut := List.splitOnP_append_cons [] rest blank
  rw [List.nil_append, List.splitOnP_nil] at cut
  simp [words, cut]

theorem words_append {word rest : Text} (nonempty : word ≠ [])
    (visible : ∀ c ∈ word, isBlank c = false) (gap : ∀ c ∈ rest.head?, isBlank c = true) :
    words (word ++ rest) = word :: words rest := by
  have kept (more : List Text) : (word :: more).filter (fun w => !w.isEmpty) =
      word :: more.filter fun w => !w.isEmpty :=
    List.filter_cons_of_pos (by simpa using nonempty)
  cases rest with
  | nil =>
    rw [List.append_nil, words, List.splitOnP_eq_singleton visible, kept]
    rfl
  | cons c more =>
    have blank : isBlank c = true := gap c rfl
    rw [words_cons_of_blank blank, words, List.splitOnP_append_cons _ _ blank,
      List.splitOnP_eq_singleton visible, List.singleton_append, kept]
    rfl

end ChatCommands.Text
