import ChatCommands.Template.Escape
import ChatCommands.Template.Span

/-!
Texts with balanced braces, as a grammar.

Scanning reads characters one by one, and a backslash together with the character after it. A text
that leaves no backslash over can be followed by any other text, and each reader of the first goes
on with the second as if it stood alone.
-/

namespace ChatCommands

namespace Text

/-- Whether the text ends in a backslash that escapes nothing. -/
def dangling : Text → Bool
  | [] => false
  | [c] => c == '\\'
  | c :: d :: rest => if c = '\\' then dangling rest else dangling (d :: rest)

/-- The text of a span with the given text inside. -/
def braced (inner : Text) : Text :=
  '{' :: (inner ++ ['}'])

@[simp] theorem length_braced (inner : Text) : (braced inner).length = inner.length + 2 := by
  simp [braced]

/-- Induction by what a scan reads in one go. -/
@[elab_as_elim]
theorem glyph_induction {motive : Text → Prop} (nil : motive []) (lone : motive ['\\'])
    (escaped : ∀ d t, motive t → motive ('\\' :: d :: t))
    (single : ∀ c t, c ≠ '\\' → motive t → motive (c :: t)) : ∀ t, motive t
  | [] => nil
  | [c] => by
    by_cases hc : c = '\\'
    · exact hc ▸ lone
    · exact single c [] hc nil
  | c :: d :: rest => by
    by_cases hc : c = '\\'
    · exact hc ▸ escaped d rest (glyph_induction nil lone escaped single rest)
    · exact single c (d :: rest) hc (glyph_induction nil lone escaped single (d :: rest))

@[simp] theorem dangling_nil : dangling [] = false := rfl

@[simp] theorem dangling_lone : dangling ['\\'] = true := rfl

@[simp] theorem dangling_escaped (d : Char) (t : Text) :
    dangling ('\\' :: d :: t) = dangling t := by
  simp [dangling]

theorem dangling_single {c : Char} (hc : c ≠ '\\') (t : Text) :
    dangling (c :: t) = dangling t := by
  cases t with
  | nil => simpa [dangling] using hc
  | cons d rest => simp [dangling, hc]

theorem dangling_append {s : Text} (whole : s.dangling = false) (t : Text) :
    dangling (s ++ t) = dangling t := by
  induction s using glyph_induction with
  | nil => rfl
  | lone => simp at whole
  | escaped d s ih =>
    rw [dangling_escaped] at whole
    simpa using ih whole
  | single c s hc ih =>
    rw [dangling_single hc] at whole
    simpa [dangling_single hc] using ih whole

theorem dangling_snoc (t : Text) {c : Char} (hc : c ≠ '\\') : dangling (t ++ [c]) = false := by
  induction t using glyph_induction with
  | nil => rw [List.nil_append, dangling_single hc, dangling_nil]
  | lone => rfl
  | escaped d t ih => rwa [List.cons_append, List.cons_append, dangling_escaped]
  | single c t hc ih => rwa [List.cons_append, dangling_single hc]

end Text

namespace Brace

variable (k : Nat)

@[simp] theorem ofTextAt_nil : ofTextAt k [] = [] := rfl

@[simp] theorem ofTextAt_lone : ofTextAt k ['\\'] = [] := rfl

@[simp] theorem ofTextAt_escaped (d : Char) (t : Text) :
    ofTextAt k ('\\' :: d :: t) = ofTextAt (k + 2) t := by
  simp [ofTextAt]

@[simp] theorem ofTextAt_open (t : Text) :
    ofTextAt k ('{' :: t) = ⟨k, true⟩ :: ofTextAt (k + 1) t := by
  cases t <;> simp [ofTextAt]

@[simp] theorem ofTextAt_close (t : Text) :
    ofTextAt k ('}' :: t) = ⟨k, false⟩ :: ofTextAt (k + 1) t := by
  cases t <;> simp [ofTextAt]

theorem ofTextAt_plain {c : Char} (hc : c ≠ '\\') (ho : c ≠ '{') (hx : c ≠ '}') (t : Text) :
    ofTextAt k (c :: t) = ofTextAt (k + 1) t := by
  cases t <;> simp [ofTextAt, hc, ho, hx]

theorem ofTextAt_append {s : Text} (whole : s.dangling = false) (t : Text) :
    ofTextAt k (s ++ t) = ofTextAt k s ++ ofTextAt (k + s.length) t := by
  induction s using Text.glyph_induction generalizing k with
  | nil => rfl
  | lone => simp at whole
  | escaped d s ih =>
    rw [Text.dangling_escaped] at whole
    have shift : k + (s.length + 1 + 1) = k + 2 + s.length := by omega
    simp [ih _ whole, shift]
  | single c s hc ih =>
    rw [Text.dangling_single hc] at whole
    have shift : k + (s.length + 1) = k + 1 + s.length := by omega
    by_cases ho : c = '{'
    · subst ho
      simp [ih _ whole, shift]
    · by_cases hx : c = '}'
      · subst hx
        simp [ih _ whole, shift]
      · simp [ofTextAt_plain _ hc ho hx, ih _ whole, shift]

theorem ofTextAt_eq_nil {j : Nat} {t : Text} (h : ofTextAt j t = []) : ofTextAt k t = [] := by
  induction t using Text.glyph_induction generalizing j k with
  | nil => rfl
  | lone => rfl
  | escaped d t ih =>
    rw [ofTextAt_escaped] at h ⊢
    exact ih _ h
  | single c t hc ih =>
    by_cases ho : c = '{'
    · simp [ho] at h
    · by_cases hx : c = '}'
      · simp [hx] at h
      · rw [ofTextAt_plain _ hc ho hx] at h ⊢
        exact ih _ h

end Brace

theorem unescape_single {characters : Text} {c : Char} (hc : c ≠ '\\') (t : Text) :
    unescape characters (c :: t) = c :: unescape characters t := by
  cases t <;> simp [unescape, hc]

theorem unescape_append {characters s : Text} (whole : s.dangling = false) (t : Text) :
    unescape characters (s ++ t) = unescape characters s ++ unescape characters t := by
  induction s using Text.glyph_induction with
  | nil => rfl
  | lone => simp at whole
  | escaped d s ih =>
    rw [Text.dangling_escaped] at whole
    by_cases hd : d ∈ characters <;> simp [unescape, hd, ih whole]
  | single c s hc ih =>
    rw [Text.dangling_single hc] at whole
    simp [unescape_single hc, ih whole]

/-- A text whose braces are balanced and whose backslashes each escape a character. -/
inductive Closed : Text → Prop where
  | nil : Closed []
  | plain {c : Char} {t : Text} : c ≠ '\\' → c ≠ '{' → c ≠ '}' → Closed t → Closed (c :: t)
  | escaped {d : Char} {t : Text} : Closed t → Closed ('\\' :: d :: t)
  | braced {inner t : Text} : Closed inner → Closed t → Closed ('{' :: (inner ++ '}' :: t))

namespace Closed

theorem whole {t : Text} (h : Closed t) : t.dangling = false := by
  induction h with
  | nil => rfl
  | plain hc _ _ _ ih => rw [Text.dangling_single hc, ih]
  | escaped _ ih => rw [Text.dangling_escaped, ih]
  | braced _ _ inner_whole ih =>
    rw [Text.dangling_single (by decide), Text.dangling_append inner_whole,
      Text.dangling_single (by decide), ih]

theorem append {s t : Text} (hs : Closed s) (ht : Closed t) : Closed (s ++ t) := by
  induction hs with
  | nil => exact ht
  | plain hc ho hx _ ih => exact .plain hc ho hx ih
  | escaped _ ih => exact .escaped ih
  | @braced inner u hi _ _ ih =>
    have assoc : '{' :: (inner ++ '}' :: u) ++ t = '{' :: (inner ++ '}' :: (u ++ t)) := by simp
    exact assoc ▸ .braced hi ih

theorem span {inner : Text} (h : Closed inner) : Closed (Text.braced inner) :=
  .braced h .nil

theorem imbalance_append {s : Text} (h : Closed s) (k : Nat) (opened : List Nat)
    (rest : List Brace) :
    imbalance opened (Brace.ofTextAt k s ++ rest) = imbalance opened rest := by
  induction h generalizing k opened rest with
  | nil => rfl
  | plain hc ho hx _ ih => rw [Brace.ofTextAt_plain k hc ho hx, ih]
  | escaped _ ih => rw [Brace.ofTextAt_escaped, ih]
  | braced hi _ ih_inner ih =>
    rw [Brace.ofTextAt_open, Brace.ofTextAt_append _ hi.whole, Brace.ofTextAt_close]
    simp only [List.cons_append, List.append_assoc, imbalance]
    rw [ih_inner]
    simp only [imbalance]
    rw [ih]

theorem closing_append {s : Text} (h : Closed s) (k inner : Nat) (rest : List Brace) :
    Brace.closing inner (Brace.ofTextAt k s ++ rest) = Brace.closing inner rest := by
  induction h generalizing k inner rest with
  | nil => rfl
  | plain hc ho hx _ ih => rw [Brace.ofTextAt_plain k hc ho hx, ih]
  | escaped _ ih => rw [Brace.ofTextAt_escaped, ih]
  | braced hi _ ih_inner ih =>
    rw [Brace.ofTextAt_open, Brace.ofTextAt_append _ hi.whole, Brace.ofTextAt_close]
    simp only [List.cons_append, List.append_assoc, Brace.closing]
    rw [ih_inner]
    simp only [Brace.closing]
    rw [ih]

end Closed

theorem closed_of_flat {t : Text} (flat : Brace.ofText t = []) (whole : t.dangling = false) :
    Closed t := by
  rw [Brace.ofText] at flat
  induction t using Text.glyph_induction with
  | nil => exact .nil
  | lone => simp at whole
  | escaped d t ih =>
    rw [Text.dangling_escaped] at whole
    rw [Brace.ofTextAt_escaped] at flat
    exact .escaped (ih (Brace.ofTextAt_eq_nil 0 flat) whole)
  | single c t hc ih =>
    rw [Text.dangling_single hc] at whole
    by_cases ho : c = '{'
    · simp [ho] at flat
    · by_cases hx : c = '}'
      · simp [hx] at flat
      · rw [Brace.ofTextAt_plain _ hc ho hx] at flat
        exact .plain hc ho hx (ih (Brace.ofTextAt_eq_nil 0 flat) whole)

/-- A text whose braces are balanced; a last backslash may be left over. -/
def Balanced (t : Text) : Prop :=
  ∃ s, Closed s ∧ (t = s ∨ t = s ++ ['\\'])

/-- A text that closes `n` pairs that were opened before it. -/
def Closing : Nat → Text → Prop
  | 0, t => Balanced t
  | n + 1, t => ∃ inner rest, Closed inner ∧ t = inner ++ '}' :: rest ∧ Closing n rest

namespace Closing

theorem plain {n : Nat} {c : Char} {t : Text} (hc : c ≠ '\\') (ho : c ≠ '{') (hx : c ≠ '}')
    (h : Closing n t) : Closing n (c :: t) := by
  cases n with
  | zero =>
    obtain ⟨s, hs, ht⟩ := h
    exact ⟨c :: s, .plain hc ho hx hs, by simpa using ht⟩
  | succ n =>
    obtain ⟨inner, rest, hi, rfl, hr⟩ := h
    exact ⟨c :: inner, rest, .plain hc ho hx hi, rfl, hr⟩

theorem escaped {n : Nat} {d : Char} {t : Text} (h : Closing n t) :
    Closing n ('\\' :: d :: t) := by
  cases n with
  | zero =>
    obtain ⟨s, hs, ht⟩ := h
    exact ⟨'\\' :: d :: s, .escaped hs, by simpa using ht⟩
  | succ n =>
    obtain ⟨inner, rest, hi, rfl, hr⟩ := h
    exact ⟨'\\' :: d :: inner, rest, .escaped hi, rfl, hr⟩

theorem opened {n : Nat} {t : Text} (h : Closing (n + 1) t) : Closing n ('{' :: t) := by
  obtain ⟨inner, rest, hi, rfl, hr⟩ := h
  cases n with
  | zero =>
    obtain ⟨s, hs, ht⟩ := hr
    refine ⟨'{' :: (inner ++ '}' :: s), .braced hi hs, ?_⟩
    simpa using ht
  | succ n =>
    obtain ⟨next, last, hn, rfl, hl⟩ := hr
    exact ⟨'{' :: (inner ++ '}' :: next), last, .braced hi hn, by simp, hl⟩

theorem of_imbalance {t : Text} {k : Nat} {opened : List Nat}
    (h : imbalance opened (Brace.ofTextAt k t) = none) : Closing opened.length t := by
  induction t using Text.glyph_induction generalizing k opened with
  | nil =>
    cases opened with
    | nil => exact ⟨[], .nil, .inl rfl⟩
    | cons p opened => simp [imbalance] at h
  | lone =>
    cases opened with
    | nil => exact ⟨[], .nil, .inr rfl⟩
    | cons p opened => simp [imbalance] at h
  | escaped d t ih =>
    rw [Brace.ofTextAt_escaped] at h
    exact (ih h).escaped
  | single c t hc ih =>
    by_cases ho : c = '{'
    · subst ho
      rw [Brace.ofTextAt_open, imbalance] at h
      exact (ih h).opened
    · by_cases hx : c = '}'
      · subst hx
        rw [Brace.ofTextAt_close] at h
        cases opened with
        | nil => simp [imbalance] at h
        | cons p opened => exact ⟨[], t, .nil, rfl, ih h⟩
      · rw [Brace.ofTextAt_plain k hc ho hx] at h
        exact (ih h).plain hc ho hx

end Closing

theorem Closed.balanced {t : Text} (h : Closed t) : Balanced t :=
  ⟨t, h, .inl rfl⟩

theorem Balanced.closed {t : Text} (h : Balanced t) (whole : t.dangling = false) : Closed t := by
  obtain ⟨s, hs, rfl | rfl⟩ := h
  · exact hs
  · rw [Text.dangling_append hs.whole] at whole
    simp at whole

theorem Closed.append_balanced {s t : Text} (hs : Closed s) (ht : Balanced t) :
    Balanced (s ++ t) := by
  obtain ⟨u, hu, rfl | rfl⟩ := ht
  · exact (hs.append hu).balanced
  · exact ⟨s ++ u, hs.append hu, .inr (by simp)⟩

/-- A scan finds no fault exactly where the braces are balanced. -/
theorem balanced_iff (t : Text) : Balanced t ↔ imbalance [] (Brace.ofText t) = none := by
  constructor
  · rintro ⟨s, hs, rfl | rfl⟩
    · simpa [imbalance, Brace.ofText] using hs.imbalance_append 0 [] []
    · rw [Brace.ofText, Brace.ofTextAt_append _ hs.whole]
      simpa [imbalance] using hs.imbalance_append 0 [] []
  · intro h
    exact Closing.of_imbalance h

theorem Closed.balanced_of_append {s t : Text} (hs : Closed s) (h : Balanced (s ++ t)) :
    Balanced t := by
  rw [balanced_iff, Brace.ofText, Brace.ofTextAt_append _ hs.whole, hs.imbalance_append] at h
  exact Closing.of_imbalance h

theorem Closed.balanced_front {s t : Text} (ht : Closed t) (whole : s.dangling = false)
    (h : Balanced (s ++ t)) : Balanced s := by
  have front (opened : List Nat) (bs : List Brace) (k : Nat) :
      imbalance opened (bs ++ Brace.ofTextAt k t) = imbalance opened bs := by
    induction bs generalizing opened with
    | nil =>
      have neutral := ht.imbalance_append k opened []
      rwa [List.append_nil] at neutral
    | cons b bs ih =>
      obtain ⟨p, _ | _⟩ := b
      · cases opened with
        | nil => rfl
        | cons q outer => exact ih outer
      · exact ih (p :: opened)
  rwa [balanced_iff, Brace.ofText, Brace.ofTextAt_append _ whole, front, ← Brace.ofText,
    ← balanced_iff] at h

theorem balanced_of_flat {t : Text} (flat : Brace.ofText t = []) : Balanced t := by
  rw [balanced_iff, flat]
  rfl

end ChatCommands
