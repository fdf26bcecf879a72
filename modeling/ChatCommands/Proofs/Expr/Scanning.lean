import ChatCommands.Proofs.Expr.Derivation

/-!
Where the scan of a text may be cut.

What stands in front of a lexeme never matters to it. What stands behind it matters only as far as
it goes on with the lexeme: a text may end behind any of its tokens, or go on there with a closing
parenthesis or a space, and the tokens up to there stay the same.
-/

namespace ChatCommands.Token

/-- Whether nothing follows, or a closing parenthesis, with which no lexeme goes on. -/
def Closed (s : Text) : Prop :=
  ∀ d ∈ s.head?, d = ')'

/-- Whether nothing follows, or a closing parenthesis or a space, with which no token goes on. -/
def Parted (s : Text) : Prop :=
  ∀ d ∈ s.head?, d = ')' ∨ d = ' '

/-! ### One lexeme -/

section Lexeme

variable {c : Char} {rest s : Text} {kind : Option TokenKind} {m n : Nat}

theorem Closed.parted (closed : Closed s) : Parted s :=
  fun d first => .inl (closed d first)

theorem Parted.ends (parted : Parted s) {p : Char → Bool} (paren : p ')' = false)
    (space : p ' ' = false) : ∀ d ∈ s.head?, p d = false := by
  intro d first
  rcases parted d first with rfl | rfl
  · exact paren
  · exact space

theorem takeWhile_eq_nil {p : Char → Bool} (ends : ∀ d ∈ s.head?, p d = false) :
    s.takeWhile p = [] := by
  cases s with
  | nil => rfl
  | cons d s => exact List.takeWhile_cons_of_neg (by simp [ends d rfl])

theorem takeWhile_cut {p : Char → Bool} (ends : ∀ d ∈ s.head?, p d = false) (rest : Text)
    (m : Nat) : (rest.take m ++ s).takeWhile p = (rest.takeWhile p).take m := by
  rw [List.takeWhile_append, takeWhile_eq_nil ends, List.append_nil, List.take_takeWhile]
  split
  · exact ((List.takeWhile_prefix p).eq_of_length ‹_›).symm
  · rfl

theorem length_takeWhile_cut {p : Char → Bool} (ends : ∀ d ∈ s.head?, p d = false)
    (long : (rest.takeWhile p).length ≤ m) :
    ((rest.take m ++ s).takeWhile p).length = (rest.takeWhile p).length := by
  rw [takeWhile_cut ends, List.length_take, Nat.min_eq_right long]

theorem length_takeWhile_le (p : Char → Bool) (t : Text) : (t.takeWhile p).length ≤ t.length :=
  (List.takeWhile_prefix p).length_le

/-- How many characters belong to a number behind its whole part: a point and digits, or none. -/
def fractionLength : Text → Nat
  | '.' :: fraction =>
    if (fraction.takeWhile Text.isDigit).length = 0 then 0
    else 1 + (fraction.takeWhile Text.isDigit).length
  | _ => 0

theorem numberLength_eq (rest : Text) :
    numberLength rest = (rest.takeWhile Text.isDigit).length +
      fractionLength (rest.drop (rest.takeWhile Text.isDigit).length) := by
  unfold numberLength
  dsimp only
  split
  · rename_i fraction behind
    rw [behind, fractionLength]
    split <;> omega
  · rename_i other
    rw [fractionLength, Nat.add_zero]
    exact other

theorem fractionLength_le (t : Text) : fractionLength t ≤ t.length := by
  unfold fractionLength
  split
  · rename_i fraction
    have := length_takeWhile_le Text.isDigit fraction
    rw [List.length_cons]
    split <;> omega
  · exact Nat.zero_le _

theorem numberLength_le (rest : Text) : numberLength rest ≤ rest.length := by
  have front := length_takeWhile_le Text.isDigit rest
  have back := fractionLength_le (rest.drop (rest.takeWhile Text.isDigit).length)
  rw [List.length_drop] at back
  rw [numberLength_eq]
  omega

theorem fractionLength_of_ne {d : Char} (other : d ≠ '.') (t : Text) :
    fractionLength (d :: t) = 0 := by
  unfold fractionLength
  split
  · rename_i same
    exact absurd (List.cons.inj same).1 other
  · rfl

theorem fractionLength_parted (parted : Parted s) : fractionLength s = 0 := by
  cases s with
  | nil => rfl
  | cons d s =>
    refine fractionLength_of_ne ?_ s
    rcases parted d rfl with rfl | rfl <;> decide

theorem fractionLength_cut (parted : Parted s) {t : Text} (long : fractionLength t ≤ m) :
    fractionLength (t.take m ++ s) = fractionLength t := by
  cases m with
  | zero => rw [List.take_zero, List.nil_append, fractionLength_parted parted, Nat.le_zero.mp long]
  | succ m =>
    cases t with
    | nil => exact fractionLength_parted parted
    | cons d fraction =>
      rw [List.take_succ_cons, List.cons_append]
      by_cases point : d = '.'
      · subst point
        rw [fractionLength] at long ⊢
        rw [fractionLength, takeWhile_cut (parted.ends (by decide) (by decide)), List.length_take]
        split at long
        · simp [*]
        · rw [Nat.min_eq_right (by omega)]
      · rw [fractionLength_of_ne point, fractionLength_of_ne point]

theorem numberLength_cut (parted : Parted s) (long : numberLength rest ≤ m) :
    numberLength (rest.take m ++ s) = numberLength rest := by
  rw [numberLength_eq] at long
  have whole : (rest.takeWhile Text.isDigit).length ≤ m := by omega
  have ends := parted.ends (p := Text.isDigit) (by decide) (by decide)
  have front := length_takeWhile_cut ends whole
  have reach : (rest.takeWhile Text.isDigit).length ≤ (rest.take m).length := by
    rw [List.length_take]
    exact Nat.le_min.mpr ⟨whole, length_takeWhile_le _ rest⟩
  rw [numberLength_eq, numberLength_eq, front, List.drop_append_of_le_length reach,
    List.drop_take, fractionLength_cut parted (by omega)]

theorem stringLength_mark (mark : Char) (rest : Text) :
    stringLength mark (mark :: rest) = some 1 := by
  cases rest <;> simp [stringLength]

theorem stringLength_escape {mark d : Char} (other : '\\' ≠ mark) (line : d ≠ '\n') (more : Text) :
    stringLength mark ('\\' :: d :: more) = (stringLength mark more).map (· + 2) := by
  simp [stringLength, other, line]

theorem stringLength_plain {mark c : Char} (other : c ≠ mark) (plain : c ≠ '\\') (rest : Text) :
    stringLength mark (c :: rest) = (stringLength mark rest).map (· + 1) := by
  cases rest <;> simp [stringLength, other, plain]

/-- A string ends at its closing mark, whatever follows that. -/
theorem stringLength_eq_some {mark : Char} {t : Text} (found : stringLength mark t = some n) :
    ∃ body rest, t = body ++ mark :: rest ∧ n = body.length + 1 ∧
      ∀ s, stringLength mark (body ++ mark :: s) = some n := by
  induction t using stringLength.induct mark generalizing n with
  | case1 => cases found
  | case2 rest =>
    rw [stringLength_mark] at found
    cases found
    exact ⟨[], rest, rfl, rfl, stringLength_mark mark⟩
  | case3 other => simp [stringLength, other] at found
  | case4 more other => simp [stringLength, other] at found
  | case5 d more line other ih =>
    rw [stringLength_escape other line] at found
    obtain ⟨k, inside, rfl⟩ := Option.map_eq_some_iff.mp found
    obtain ⟨body, rest, rfl, rfl, whatever⟩ := ih inside
    refine ⟨'\\' :: d :: body, rest, rfl, rfl, fun s => ?_⟩
    rw [List.cons_append, List.cons_append, stringLength_escape other line, whatever s]
    rfl
  | case6 c rest other plain ih =>
    rw [stringLength_plain other plain] at found
    obtain ⟨k, inside, rfl⟩ := Option.map_eq_some_iff.mp found
    obtain ⟨body, rest, rfl, rfl, whatever⟩ := ih inside
    refine ⟨c :: body, rest, rfl, rfl, fun s => ?_⟩
    rw [List.cons_append, stringLength_plain other plain, whatever s]
    rfl

theorem stringLength_le {mark : Char} {t : Text} (found : stringLength mark t = some n) :
    n ≤ t.length := by
  obtain ⟨body, rest, rfl, rfl, _⟩ := stringLength_eq_some found
  simp

theorem stringLength_cut {mark : Char} {t : Text} (found : stringLength mark t = some n)
    (long : n ≤ m) (s : Text) : stringLength mark (t.take m ++ s) = some n := by
  obtain ⟨body, rest, rfl, rfl, whatever⟩ := stringLength_eq_some found
  obtain ⟨k, rfl⟩ := Nat.exists_eq_add_of_le long
  have split : (body ++ mark :: rest).take (body.length + 1 + k) = body ++ mark :: rest.take k := by
    rw [Nat.add_assoc, List.take_length_add_append, Nat.add_comm 1, List.take_succ_cons]
  rw [split, List.append_assoc, List.cons_append]
  exact whatever _

/-- No operator has a parenthesis or a space behind its first character, so that none is completed
by what follows a cut. -/
theorem operator_of_cut {o : Text} (operator : o ∈ operators) (parted : Parted s)
    (fits : o <+: c :: (rest.take m ++ s)) : o <+: c :: rest := by
  have inside : ∀ o ∈ operators, ')' ∉ o.tail ∧ ' ' ∉ o.tail := by decide
  have front : c :: rest.take m <+: c :: rest := ⟨rest.drop m, by simp⟩
  rw [← List.cons_append] at fits
  obtain ⟨u, same⟩ := fits
  rcases List.append_eq_append_iff.mp same with ⟨a, split, _⟩ | ⟨b, split, behind⟩
  · exact List.IsPrefix.trans ⟨a, split.symm⟩ front
  · cases b with
    | nil =>
      rw [List.append_nil] at split
      exact split ▸ front
    | cons d b =>
      have within : d ∈ o.tail := by simp [split]
      rcases parted d (by rw [behind]; rfl) with rfl | rfl
      · exact absurd within (inside o operator).1
      · exact absurd within (inside o operator).2

theorem operators_cut {o : Text} (parted : Parted s)
    (found : operators.find? (fun o => o.isPrefixOf (c :: rest)) = some o)
    (long : o.length ≤ m + 1) :
    operators.find? (fun o => o.isPrefixOf (c :: (rest.take m ++ s))) = some o := by
  obtain ⟨fits, before, behind, split, others⟩ := List.find?_eq_some_iff_append.mp found
  refine List.find?_eq_some_iff_append.mpr ⟨?_, before, behind, split, fun o' earlier => ?_⟩
  · rw [List.isPrefixOf_iff_prefix] at fits ⊢
    have front : o <+: (c :: rest).take (m + 1) := List.prefix_take_iff.mpr ⟨fits, long⟩
    exact front.trans ⟨s, rfl⟩
  · have operator : o' ∈ operators := split ▸ List.mem_append_left _ earlier
    have other := others o' earlier
    rw [Bool.not_eq_true', Bool.eq_false_iff, ne_eq, List.isPrefixOf_iff_prefix] at other ⊢
    exact mt (operator_of_cut operator parted) other

/-- What a lexeme is, by the character it begins with. -/
inductive Lexeme (c : Char) (rest : Text) : Option TokenKind → Nat → Prop
  | blank (blank : Text.isBlank c) : Lexeme c rest none (rest.takeWhile Text.isBlank).length
  | number (visible : ¬ Text.isBlank c) (digit : Text.isDigit c) :
      Lexeme c rest (some .number) (numberLength rest)
  | string {k : Nat} (visible : ¬ Text.isBlank c) (other : ¬ Text.isDigit c)
      (quoted : c = '\x27' ∨ c = '\x22') (closes : stringLength c rest = some k) :
      Lexeme c rest (some .string) k
  | name (visible : ¬ Text.isBlank c) (other : ¬ Text.isDigit c)
      (unquoted : ¬ (c = '\x27' ∨ c = '\x22')) (start : isNameStart c) :
      Lexeme c rest (some .name) (rest.takeWhile isNameChar).length
  | op {o : Text} (visible : ¬ Text.isBlank c) (other : ¬ Text.isDigit c)
      (unquoted : ¬ (c = '\x27' ∨ c = '\x22')) (symbol : ¬ isNameStart c)
      (first : operators.find? (fun o => o.isPrefixOf (c :: rest)) = some o) :
      Lexeme c rest (some .op) (o.length - 1)

theorem lexeme_iff : lexeme c rest = some (kind, n) ↔ Lexeme c rest kind n := by
  constructor
  · intro found
    rw [lexeme] at found
    split at found
    · cases found
      exact .blank ‹_›
    · split at found
      · cases found
        exact .number ‹_› ‹_›
      · split at found
        · obtain ⟨_, closes, same⟩ := Option.map_eq_some_iff.mp found
          cases same
          exact .string ‹_› ‹_› ‹_› closes
        · split at found
          · cases found
            exact .name ‹_› ‹_› ‹_› ‹_›
          · obtain ⟨_, first, same⟩ := Option.map_eq_some_iff.mp found
            cases same
            exact .op ‹_› ‹_› ‹_› ‹_› first
  · intro found
    cases found with
    | blank blank => rw [lexeme, if_pos blank]
    | number visible digit => rw [lexeme, if_neg visible, if_pos digit]
    | string visible other quoted closes =>
      rw [lexeme, if_neg visible, if_neg other, if_pos quoted, closes, Option.map_some]
    | name visible other unquoted start =>
      rw [lexeme, if_neg visible, if_neg other, if_neg unquoted, if_pos start]
    | op visible other unquoted symbol first =>
      rw [lexeme, if_neg visible, if_neg other, if_neg unquoted, if_neg symbol, first,
        Option.map_some]

/-- A token stays the same when the text is cut anywhere behind it. -/
theorem token_cut {k : TokenKind} (parted : Parted s) (found : lexeme c rest = some (some k, n))
    (long : n ≤ m) : lexeme c (rest.take m ++ s) = some (some k, n) := by
  rw [lexeme_iff] at found ⊢
  cases found with
  | number visible digit =>
    rw [← numberLength_cut parted long]
    exact .number visible digit
  | string visible other quoted closes =>
    exact .string visible other quoted (stringLength_cut closes long s)
  | name visible other unquoted start =>
    rw [← length_takeWhile_cut (parted.ends (by decide) (by decide)) long]
    exact .name visible other unquoted start
  | op visible other unquoted symbol first =>
    exact .op visible other unquoted symbol (operators_cut parted first (by omega))

/-- White space goes on with a space, but not with a parenthesis. -/
theorem lexeme_cut (closed : Closed s) (found : lexeme c rest = some (kind, n)) (long : n ≤ m) :
    lexeme c (rest.take m ++ s) = some (kind, n) := by
  cases kind with
  | some k => exact token_cut closed.parted found long
  | none =>
    have ends : ∀ d ∈ s.head?, Text.isBlank d = false := by
      intro d first
      rw [closed d first]
      rfl
    rw [lexeme_iff] at found ⊢
    cases found with
    | blank blank =>
      rw [← length_takeWhile_cut ends long]
      exact .blank blank

theorem lexeme_le (found : lexeme c rest = some (kind, n)) : n ≤ rest.length := by
  rw [lexeme_iff] at found
  cases found with
  | blank => exact length_takeWhile_le _ rest
  | number => exact numberLength_le rest
  | string _ _ _ closes => exact stringLength_le closes
  | name => exact length_takeWhile_le _ rest
  | op _ _ _ _ first =>
    have fits := List.find?_some first
    have := (List.isPrefixOf_iff_prefix.mp fits).length_le
    rw [List.length_cons] at this
    omega

theorem lexeme_ends {p : Nat} (short : n ≤ rest.length) :
    p + (n + 1) + (rest.drop n).length = p + (c :: rest).length := by
  rw [List.length_drop, List.length_cons]
  omega

end Lexeme

/-! ### The tokens of a text -/

/-- The same token where the text around it starts at `q` in place of `p`. -/
def moved (p q : Nat) (x : Token) : Token :=
  { x with position := x.position + q - p }

theorem moved_add (p q k : Nat) : moved (p + k) (q + k) = moved p q := by
  funext x
  simp only [moved, Token.mk.injEq, true_and]
  omega

/-- The tokens of a text whose first character stands at a position, lexeme by lexeme. -/
inductive Scans : Nat → Text → List Token → Prop
  | done {p} : Scans p [] []
  | blank {p c rest n ts} (found : lexeme c rest = some (none, n))
      (later : Scans (p + (n + 1)) (rest.drop n) ts) : Scans p (c :: rest) ts
  | token {p c rest k n ts} (found : lexeme c rest = some (some k, n))
      (later : Scans (p + (n + 1)) (rest.drop n) ts) :
      Scans p (c :: rest) (⟨k, c :: rest.take n, p⟩ :: ts)

theorem scans_of_scanAt {p : Nat} {t : Text} {ts : List Token} (scanned : scanAt p t = .ok ts) :
    Scans p t ts := by
  induction p, t using scanAt.induct generalizing ts with
  | case1 p =>
    rw [scanAt] at scanned
    cases scanned
    exact .done
  | case2 p c rest none =>
    rw [scanAt, none] at scanned
    cases scanned
  | case3 p c rest kind n found ih =>
    rw [scanAt, found] at scanned
    obtain ⟨others, later, same⟩ := map_eq_ok.mp scanned
    cases kind with
    | none => exact same ▸ .blank found (ih later)
    | some k => exact same ▸ .token found (ih later)

namespace Scans

variable {p q : Nat} {t s : Text} {ts us : List Token}

theorem scanAt_eq (h : Scans p t ts) : scanAt p t = .ok ts := by
  induction h with
  | done => rw [scanAt]
  | blank found later ih =>
    rw [scanAt, found]
    dsimp only
    rw [ih]
    rfl
  | token found later ih =>
    rw [scanAt, found]
    dsimp only
    rw [ih]
    rfl

/-- Each token stands inside the text. -/
theorem inside (h : Scans p t ts) : ∀ x ∈ ts, p ≤ x.position ∧ x.stop ≤ p + t.length := by
  induction h with
  | done => exact nofun
  | @blank p c rest n ts found later ih =>
    intro x member
    have := ih x member
    have := lexeme_le found
    rw [List.length_drop] at *
    rw [List.length_cons]
    omega
  | @token p c rest k n ts found later ih =>
    have := lexeme_le found
    refine List.forall_mem_cons.mpr ⟨⟨Nat.le_refl p, ?_⟩, fun x member => ?_⟩
    · simp only [stop, List.length_cons, List.length_take]
      omega
    · have := ih x member
      rw [List.length_drop] at this
      rw [List.length_cons]
      omega

theorem moved (h : Scans p t ts) (q : Nat) : Scans q t (ts.map (Token.moved p q)) := by
  induction h generalizing q with
  | done => exact .done
  | @blank p c rest n ts found later ih =>
    have later := ih (q + (n + 1))
    rw [moved_add] at later
    exact .blank found later
  | @token p c rest k n ts found later ih =>
    have later := ih (q + (n + 1))
    have first : Token.moved p q ⟨k, c :: rest.take n, p⟩ = ⟨k, c :: rest.take n, q⟩ := by
      rw [Token.moved, Nat.add_sub_cancel_left]
    rw [moved_add] at later
    rw [List.map_cons, first]
    exact .token found later

/-- A lexeme in front of what is scanned. -/
theorem whole {c : Char} {k : TokenKind} (ds : Text)
    (found : lexeme c (ds ++ s) = some (some k, ds.length))
    (behind : Scans (p + (c :: ds).length) s us) :
    Scans p (c :: ds ++ s) (⟨k, c :: ds, p⟩ :: us) := by
  have scans := Scans.token found (by rw [List.drop_left]; exact behind)
  rwa [List.take_left] at scans

theorem append (h : Scans p t ts) (closed : Closed s) (behind : Scans (p + t.length) s us) :
    Scans p (t ++ s) (ts ++ us) := by
  induction h with
  | done => exact behind
  | @blank p c rest n ts found later ih =>
    have short := lexeme_le found
    have found := lexeme_cut closed found short
    have later := ih (by rwa [lexeme_ends short])
    rw [List.take_length] at found
    rw [← List.drop_append_of_le_length short] at later
    exact .blank found later
  | @token p c rest k n ts found later ih =>
    have short := lexeme_le found
    have found := lexeme_cut closed found short
    have later := ih (by rwa [lexeme_ends short])
    rw [List.take_length] at found
    rw [← List.drop_append_of_le_length short] at later
    have whole := Scans.token found later
    rwa [List.take_append_of_le_length short] at whole

/-- The tokens up to a place are those of the text that ends there. -/
theorem take (h : Scans p t (ts ++ us)) : ∃ m, lastStop p ts = p + m ∧ Scans p (t.take m) ts := by
  generalize same : ts ++ us = all at h
  induction h generalizing ts with
  | done =>
    obtain ⟨rfl, _⟩ := List.append_eq_nil_iff.mp same
    exact ⟨0, rfl, .done⟩
  | @blank p c rest n all found later ih =>
    cases ts with
    | nil => exact ⟨0, rfl, .done⟩
    | cons x ts =>
      obtain ⟨m, stops, first⟩ := ih same
      refine ⟨n + m + 1, by rw [lastStop_cons] at stops ⊢; omega, ?_⟩
      have found := lexeme_cut (s := []) nofun found (Nat.le_add_right n m)
      rw [List.append_nil] at found
      refine .blank found ?_
      rwa [List.drop_take, Nat.add_sub_cancel_left]
  | @token p c rest k n all found later ih =>
    cases ts with
    | nil => exact ⟨0, rfl, .done⟩
    | cons x ts =>
      obtain ⟨rfl, others⟩ := List.cons.inj same
      obtain ⟨m, stops, first⟩ := ih others
      have stop : (⟨k, c :: rest.take n, p⟩ : Token).stop = p + (n + 1) := by
        simp [Token.stop, lexeme_le found]
      refine ⟨n + m + 1, by rw [lastStop_cons, stop]; omega, ?_⟩
      have found := lexeme_cut (s := []) nofun found (Nat.le_add_right n m)
      rw [List.append_nil] at found
      have whole : Scans p (c :: rest.take (n + m))
          (⟨k, c :: (rest.take (n + m)).take n, p⟩ :: ts) :=
        .token found (by rwa [List.drop_take, Nat.add_sub_cancel_left])
      rwa [List.take_take, Nat.min_eq_left (Nat.le_add_right n m)] at whole

/-- The tokens from a place on are those of the text that begins with the first of them. -/
theorem drop {x : Token} (h : Scans p t (ts ++ x :: us)) :
    ∃ m, x.position = p + m ∧ Scans x.position (t.drop m) (x :: us) := by
  generalize same : ts ++ x :: us = all at h
  induction h generalizing ts with
  | done => simp at same
  | @blank p c rest n all found later ih =>
    obtain ⟨m, starts, behind⟩ := ih same
    refine ⟨n + m + 1, by omega, ?_⟩
    rwa [List.drop_succ_cons, ← List.drop_drop]
  | @token p c rest k n all found later ih =>
    cases ts with
    | nil =>
      obtain ⟨rfl, rfl⟩ := List.cons.inj same
      exact ⟨0, rfl, .token found later⟩
    | cons y ts =>
      obtain ⟨m, starts, behind⟩ := ih (List.cons.inj same).2
      refine ⟨n + m + 1, by omega, ?_⟩
      rwa [List.drop_succ_cons, ← List.drop_drop]

/-- Some tokens in a row are those of the text from the first to the last of them. -/
theorem slice {x : Token} {vs : List Token} (h : Scans 0 t (ts ++ (x :: us) ++ vs)) :
    Scans x.position (Text.slice t x.position (lastStop x.stop us)) (x :: us) := by
  rw [List.append_assoc, List.cons_append] at h
  obtain ⟨m, starts, behind⟩ := h.drop
  rw [← List.cons_append] at behind
  obtain ⟨k, stops, inside⟩ := take behind
  rw [lastStop_cons] at stops
  rw [Nat.zero_add] at starts
  rw [← starts] at inside
  rwa [Text.slice, stops, ← List.take_drop]

end Scans

end ChatCommands.Token
