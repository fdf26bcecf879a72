import ChatCommands.Expr.Token

/-!
How numerals in expressions are read: digits, and a point between digits.

The only thing that can go wrong is that an integer has too many digits.
-/

namespace ChatCommands

namespace Text

/-- Whether a text is digits, of which there is one at least. -/
def Digits (t : Text) : Prop :=
  t ≠ [] ∧ ∀ c ∈ t, isDigit c = true

theorem isBlank_of_isDigit {c : Char} (digit : isDigit c = true) : isBlank c = false := by
  have apart : ∀ z ∈ digitZeros, ∀ r ∈ blankRanges, z + 10 ≤ r.1 ∨ r.2 < z := by decide
  rw [Bool.eq_false_iff]
  intro blank
  obtain ⟨r, inside, low, high⟩ := inRanges_iff.mp blank
  obtain ⟨d, value⟩ := Option.isSome_iff_exists.mp digit
  obtain ⟨z, found, _⟩ := Option.map_eq_some_iff.mp value
  have near := List.find?_some found
  simp only [Bool.and_eq_true, decide_eq_true_eq] at near
  have := apart z (List.mem_of_find?_eq_some found) r inside
  omega

theorem Digits.ne {t : Text} (h : t.Digits) {c : Char} (other : isDigit c = false) : c ∉ t := by
  intro member
  rw [h.2 c member] at other
  cases other

end Text

namespace Numeral

open Text

theorem trim_eq_self {t : Text} (visible : ∀ c ∈ t, isBlank c = false) : trim t = t := by
  have kept : ∀ c ∈ t, isMargin c = false := fun c member => by
    rw [isMargin, visible c member, Bool.false_and]
  have drop (u : Text) (kept : ∀ c ∈ u, isMargin c = false) : u.dropWhile isMargin = u := by
    cases u with
    | nil => rfl
    | cons c u => rw [List.dropWhile_cons_of_neg (by simp [kept c])]
  rw [trim, drop t kept, drop _ fun c member => kept c (List.mem_reverse.mp member),
    List.reverse_reverse]

theorem sign_eq_self {c : Char} {t : Text} (digit : isDigit c = true) :
    sign (c :: t) = (false, c :: t) := by
  unfold sign
  split
  · rename_i same
    cases same
    cases digit
  · rename_i same
    cases same
    cases digit
  · rfl

theorem digitRun_digits {ds rest : Text} (digits : ∀ c ∈ ds, isDigit c = true)
    (stops : ∀ inside, digitRun inside rest = ([], rest)) (inside : Bool) :
    ∃ values, digitRun inside (ds ++ rest) = (values, rest) ∧ values.length = ds.length := by
  induction ds generalizing inside with
  | nil => exact ⟨[], stops inside, rfl⟩
  | cons c ds ih =>
    obtain ⟨digit, others⟩ := List.forall_mem_cons.mp digits
    obtain ⟨values, run, length⟩ := ih others true
    obtain ⟨d, value⟩ := Option.isSome_iff_exists.mp digit
    refine ⟨d :: values, ?_, by rw [List.length_cons, List.length_cons, length]⟩
    rw [List.cons_append]
    unfold digitRun
    split
    · rename_i same
      cases same
    · rename_i same
      obtain ⟨rfl, _⟩ := List.cons.inj same
      cases digit
    · rename_i same
      obtain ⟨rfl, rfl⟩ := List.cons.inj same
      rw [value, run]

theorem readInt_digits {t : Text} (digits : t.Digits) :
    (readInt t).isSome ↔ t.length ≤ maxDigits := by
  obtain ⟨nonempty, all⟩ := digits
  have none (inside : Bool) : digitRun inside [] = ([], []) := rfl
  obtain ⟨values, run, length⟩ := digitRun_digits all none false
  have trimmed := trim_eq_self fun c member => isBlank_of_isDigit (all c member)
  rw [List.append_nil] at run
  rw [readInt, trimmed]
  cases t with
  | nil => exact absurd rfl nonempty
  | cons c t =>
    rw [sign_eq_self (all c List.mem_cons_self)]
    simp only [run]
    cases values with
    | nil => cases length
    | cons d values =>
      dsimp only
      rw [← length]
      split <;> simp_all

theorem readFloat_point {whole fraction : Text} (hw : whole.Digits) (hf : fraction.Digits) :
    (readFloat (whole ++ '.' :: fraction)).isSome := by
  have point (inside : Bool) : digitRun inside ('.' :: fraction) = ([], '.' :: fraction) := rfl
  obtain ⟨values, run, length⟩ := digitRun_digits hw.2 point false
  have none (inside : Bool) : digitRun inside [] = ([], []) := rfl
  obtain ⟨values', run', _⟩ := digitRun_digits hf.2 none false
  rw [List.append_nil] at run'
  have visible : ∀ c ∈ whole ++ '.' :: fraction, isBlank c = false := by
    intro c member
    rcases List.mem_append.mp member with inside | inside
    · exact isBlank_of_isDigit (hw.2 c inside)
    · rcases List.mem_cons.mp inside with rfl | inside
      · decide
      · exact isBlank_of_isDigit (hf.2 c inside)
  have signed : sign (whole ++ '.' :: fraction) = (false, whole ++ '.' :: fraction) := by
    cases whole with
    | nil => exact absurd rfl hw.1
    | cons c whole => exact sign_eq_self (hw.2 c List.mem_cons_self)
  have decimal : (readDecimal false (whole ++ '.' :: fraction)).isSome := by
    cases values with
    | nil => exact absurd (List.length_eq_zero_iff.mp length.symm) hw.1
    | cons d values => simp [readDecimal, run, run', readExponent]
  rw [readFloat, trim_eq_self visible, signed]
  dsimp only
  split
  · rfl
  · split
    · rfl
    · exact decimal

end Numeral

namespace Token

open Text

/-- Whether a number is digits, or digits with a point between them. -/
def Shaped (t : Token) : Prop :=
  t.kind = .number → t.text.Digits ∨
    ∃ whole fraction : Text, whole.Digits ∧ fraction.Digits ∧ t.text = whole ++ '.' :: fraction

/-- Whether a number has a run of digits that is too long for an integer. -/
def Overlong (t : Token) : Prop :=
  t.kind = .number ∧ ∃ run ∈ t.text.splitOn '.', Numeral.maxDigits < run.length

theorem splitOn_whole {t : Text} (whole : '.' ∉ t) : t.splitOn '.' = [t] := by
  refine List.splitOnP_eq_singleton fun c member => ?_
  rw [beq_eq_false_iff_ne]
  rintro rfl
  exact whole member

theorem splitOn_digits {t : Text} (digits : t.Digits) : t.splitOn '.' = [t] :=
  splitOn_whole (digits.ne (by decide))

theorem splitOn_point {whole fraction : Text} (hw : whole.Digits) (hf : fraction.Digits) :
    (whole ++ '.' :: fraction).splitOn '.' = [whole, fraction] := by
  have rest := splitOn_digits hf
  rw [List.splitOn] at rest ⊢
  rw [List.splitOnP_append_cons_of_forall_mem _ _ rfl, rest]
  intro c member
  rw [beq_eq_false_iff_ne]
  rintro rfl
  exact hw.ne (by decide) member

theorem Shaped.runs {t : Token} (shaped : t.Shaped) (number : t.kind = .number) :
    ∀ run ∈ t.text.splitOn '.', Text.Digits run := by
  rcases shaped number with digits | ⟨whole, fraction, hw, hf, text⟩
  · rw [splitOn_digits digits, List.forall_mem_singleton]
    exact digits
  · rw [text, splitOn_point hw hf, List.forall_mem_cons, List.forall_mem_singleton]
    exact ⟨hw, hf⟩

theorem take_length_takeWhile (p : Char → Bool) (t : Text) :
    t.take (t.takeWhile p).length = t.takeWhile p :=
  (List.prefix_iff_eq_take.mp (List.takeWhile_prefix p)).symm

theorem digits_takeWhile (t : Text) : ∀ c ∈ t.takeWhile isDigit, isDigit c = true :=
  List.all_eq_true.mp List.all_takeWhile

theorem take_numberLength {c : Char} {rest : Text} (digit : isDigit c = true) :
    Digits (c :: rest.take (numberLength rest)) ∨ ∃ whole fraction : Text, whole.Digits ∧
      fraction.Digits ∧ c :: rest.take (numberLength rest) = whole ++ '.' :: fraction := by
  have front : Digits (c :: rest.takeWhile isDigit) :=
    ⟨by simp, List.forall_mem_cons.mpr ⟨digit, digits_takeWhile rest⟩⟩
  have taken := take_length_takeWhile isDigit rest
  unfold numberLength
  dsimp only
  split
  · rename_i fraction behind
    split
    · rw [taken]
      exact .inl front
    · rename_i some_digits
      have taken' := take_length_takeWhile isDigit fraction
      have back : Digits (fraction.takeWhile isDigit) :=
        ⟨fun empty => some_digits (by rw [empty]; rfl), digits_takeWhile fraction⟩
      refine .inr ⟨c :: rest.takeWhile isDigit, _, front, back, ?_⟩
      rw [Nat.add_assoc, List.take_add, taken, behind, Nat.add_comm 1, List.take_succ_cons, taken']
      rfl
  · rw [taken]
    exact .inl front

theorem lexeme_number {c : Char} {rest : Text} {n : Nat}
    (h : lexeme c rest = some (some .number, n)) : isDigit c = true ∧ n = numberLength rest := by
  rw [lexeme] at h
  split at h
  · cases h
  · split at h
    · cases h
      exact ⟨‹_›, rfl⟩
    · split at h
      · obtain ⟨m, _, same⟩ := Option.map_eq_some_iff.mp h
        cases same
      · split at h
        · cases h
        · obtain ⟨o, _, same⟩ := Option.map_eq_some_iff.mp h
          cases same

theorem forall_scanAt {good : Token → Prop} (every : ∀ c rest k n position,
    lexeme c rest = some (some k, n) → good ⟨k, c :: rest.take n, position⟩) {position : Nat}
    {t : Text} {tokens : List Token} (scanned : scanAt position t = .ok tokens) :
    ∀ x ∈ tokens, good x := by
  induction position, t using scanAt.induct generalizing tokens with
  | case1 position =>
    rw [scanAt] at scanned
    cases scanned
    exact fun _ member => nomatch member
  | case2 position c rest none =>
    rw [scanAt, none] at scanned
    cases scanned
  | case3 position c rest kind n found ih =>
    rw [scanAt, found] at scanned
    dsimp only at scanned
    cases later : scanAt (position + (n + 1)) (rest.drop n) with
    | error e =>
      rw [later] at scanned
      cases scanned
    | ok others =>
      rw [later] at scanned
      cases kind with
      | none =>
        cases scanned
        exact ih later
      | some k =>
        cases scanned
        exact List.forall_mem_cons.mpr ⟨every c rest k n position found, ih later⟩

theorem shaped_scanAt {position : Nat} {t : Text} {tokens : List Token}
    (scanned : scanAt position t = .ok tokens) : ∀ x ∈ tokens, x.Shaped := by
  refine forall_scanAt (fun c rest k n position found number => ?_) scanned
  change k = .number at number
  subst number
  obtain ⟨digit, rfl⟩ := lexeme_number found
  exact take_numberLength digit

/-- Whether a name begins as a name does. -/
def Named (t : Token) : Prop :=
  t.kind = .name → ∃ c rest, t.text = c :: rest ∧ isNameStart c = true

theorem lexeme_name {c : Char} {rest : Text} {n : Nat}
    (h : lexeme c rest = some (some .name, n)) : isNameStart c = true := by
  rw [lexeme] at h
  split at h
  · cases h
  · split at h
    · cases h
    · split at h
      · obtain ⟨m, _, same⟩ := Option.map_eq_some_iff.mp h
        cases same
      · split at h
        · assumption
        · obtain ⟨o, _, same⟩ := Option.map_eq_some_iff.mp h
          cases same

theorem named_scanAt {position : Nat} {t : Text} {tokens : List Token}
    (scanned : scanAt position t = .ok tokens) : ∀ x ∈ tokens, x.Named := by
  refine forall_scanAt (fun c rest k n position found name => ?_) scanned
  change k = .name at name
  subst name
  exact ⟨c, rest.take n, rfl, lexeme_name found⟩

theorem Named.isMark_of_kind {t : Token} (named : t.Named) (name : t.kind = .name) {mark : String}
    {c : Char} {rest : Text} (symbol : mark.toList = c :: rest) (other : isNameStart c = false) :
    t.isMark mark = false := by
  obtain ⟨d, more, text, start⟩ := named name
  have apart : (t.text == mark.toList) = false := by
    rw [beq_eq_false_iff_ne, text, symbol]
    rintro same
    obtain ⟨rfl, _⟩ := List.cons.inj same
    rw [start] at other
    cases other
  rw [isMark, apart, Bool.and_false]

end Token

end ChatCommands
