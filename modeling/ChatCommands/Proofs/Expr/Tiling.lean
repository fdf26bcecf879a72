import ChatCommands.Proofs.Expr.Sources

/-!
The tokens of a text, the white space between them, and the text with its white space replaced.

The tokens of a text cover it except for white space. What makes a token is its own text alone, so
that the tokens come out the same when single spaces stand between them.
-/

namespace ChatCommands.Token

/-! ### Tokens and white space -/

/-- Whether a text, from a position on, is these tokens in a row with only white space between and
around them. -/
structure Tiles (start : Nat) (t : Text) (ts : List Token) : Prop where
  text : ∀ x ∈ ts, t.slice x.position x.stop = x.text
  inside : ∀ x ∈ ts, start ≤ x.position ∧ x.position < x.stop ∧ x.stop ≤ t.length
  ordered : ts.Pairwise fun x y => x.stop ≤ y.position
  between : ∀ i c, start ≤ i → t[i]? = some c → (∀ x ∈ ts, i < x.position ∨ x.stop ≤ i) →
    Text.isBlank c = true

section Tiles

variable {t : Text} {ts : List Token} {p q : Nat}

theorem Tiles.done (ends : t.length ≤ p) : Tiles p t [] := by
  refine ⟨nofun, nofun, .nil, fun i c behind here _ => ?_⟩
  have := (List.getElem?_eq_some_iff.mp here).1
  omega

theorem Tiles.blank (later : Tiles q t ts) (order : p ≤ q)
    (blank : ∀ i c, p ≤ i → i < q → t[i]? = some c → Text.isBlank c = true) : Tiles p t ts := by
  refine ⟨later.text, fun x member => ?_, later.ordered, fun i c behind here free => ?_⟩
  · have := later.inside x member
    omega
  · by_cases before : i < q
    · exact blank i c behind before here
    · exact later.between i c (Nat.le_of_not_lt before) here free

theorem Tiles.token {x : Token} (starts : x.position = p) (stops : x.stop = q)
    (later : Tiles q t ts) (text : t.slice p q = x.text) (some : p < q) (inside : q ≤ t.length) :
    Tiles p t (x :: ts) := by
  subst starts stops
  constructor
  · exact List.forall_mem_cons.mpr ⟨text, later.text⟩
  · refine List.forall_mem_cons.mpr ⟨⟨Nat.le_refl _, some, inside⟩, fun y member => ?_⟩
    have := later.inside y member
    omega
  · exact List.pairwise_cons.mpr ⟨fun y member => (later.inside y member).1, later.ordered⟩
  · intro i c behind here free
    obtain ⟨first, free⟩ := List.forall_mem_cons.mp free
    exact later.between i c (by omega) here free

end Tiles

variable {c : Char} {rest t : Text} {n p : Nat} {ts : List Token}

theorem blank_of_lexeme (found : lexeme c rest = some (none, n)) :
    ∀ d ∈ c :: rest.take n, Text.isBlank d = true := by
  cases lexeme_iff.mp found with
  | blank blank =>
    rw [take_length_takeWhile]
    exact List.forall_mem_cons.mpr ⟨blank, List.all_eq_true.mp List.all_takeWhile⟩

theorem getElem?_lexeme {i : Nat} (here : t.drop p = c :: rest) (behind : p ≤ i)
    (before : i < p + (n + 1)) : t[i]? = (c :: rest.take n)[i - p]? := by
  have place : p + (i - p) = i := Nat.add_sub_cancel' behind
  rw [← List.take_succ_cons, ← here, List.getElem?_take_of_lt (by omega), List.getElem?_drop, place]

theorem drop_lexeme (here : t.drop p = c :: rest) (n : Nat) :
    t.drop (p + (n + 1)) = rest.drop n := by
  rw [← List.drop_drop, here, List.drop_succ_cons]

/-- By induction on the scan. What is behind a lexeme is tiled from where the lexeme ends. -/
theorem Scans.tiles {s : Text} (h : Scans p s ts) (here : t.drop p = s) : Tiles p t ts := by
  induction h with
  | done => exact .done (List.drop_eq_nil_iff.mp here)
  | @blank p c rest n ts found later ih =>
    refine .blank (ih (drop_lexeme here n)) (Nat.le_add_right _ _) fun i d low high at_i => ?_
    rw [getElem?_lexeme here low high] at at_i
    exact blank_of_lexeme found d (List.mem_of_getElem? at_i)
  | @token p c rest k n ts found later ih =>
    have length := congrArg List.length here
    rw [List.length_drop, List.length_cons] at length
    have short := lexeme_le found
    refine .token rfl (by simp [Token.stop, short]) (ih (drop_lexeme here n)) ?_
      (by omega) (by omega)
    rw [Text.slice, ← List.take_drop, here, List.take_succ_cons]

/-! ### Other white space -/

/-- What a token is apart from its place. -/
def lexed (x : Token) : TokenKind × Text :=
  (x.kind, x.text)

/-- The texts of tokens with a space between each two. -/
def spaced (ts : List Token) : Text :=
  Text.join [' '] (ts.map Token.text)

/-- Whether the text of a token is by itself a lexeme of its kind. -/
def Whole (x : Token) : Prop :=
  ∃ c ds, x.text = c :: ds ∧ lexeme c ds = some (some x.kind, ds.length)

theorem whole_scanAt (scanned : scanAt p t = .ok ts) : ∀ x ∈ ts, x.Whole := by
  refine forall_scanAt (fun c rest k n _ found => ⟨c, rest.take n, rfl, ?_⟩) scanned
  have alone := token_cut (s := []) nofun found (Nat.le_refl n)
  rw [List.append_nil] at alone
  rw [alone, List.length_take, Nat.min_eq_left (lexeme_le found)]

theorem Whole.scans {x : Token} (whole : x.Whole) {s : Text} (parted : Parted s) {us : List Token}
    (behind : Scans (p + x.text.length) s us) :
    Scans p (x.text ++ s) ({ x with position := p } :: us) := by
  obtain ⟨c, ds, text, found⟩ := whole
  have stays := token_cut parted found (Nat.le_refl _)
  rw [List.take_length] at stays
  rw [text] at behind ⊢
  have scans := Scans.whole ds stays behind
  rwa [← text] at scans ⊢

theorem Whole.visible {x : Token} (whole : x.Whole) (more : Text) :
    ∀ d ∈ (x.text ++ more).head?, Text.isBlank d = false := by
  obtain ⟨c, ds, text, found⟩ := whole
  rw [text]
  rintro d ⟨⟩
  exact visible_of_lexeme found

/-- A space in front of a token is a lexeme by itself. -/
theorem Scans.space {s : Text} (visible : ∀ d ∈ s.head?, Text.isBlank d = false)
    (later : Scans (p + 1) s ts) : Scans p (' ' :: s) ts := by
  have found : lexeme ' ' s = some (none, 0) := by
    rw [lexeme_iff, ← List.length_eq_zero_iff.mpr (takeWhile_eq_nil visible)]
    exact .blank rfl
  exact .blank found later

theorem spaced_single (x : Token) : spaced [x] = x.text :=
  List.append_nil _

theorem spaced_cons_cons (x y : Token) (ts : List Token) :
    spaced (x :: y :: ts) = x.text ++ (' ' :: spaced (y :: ts)) :=
  Text.join_cons_cons [' '] x.text y.text (ts.map text)

theorem exists_spaced_cons (x : Token) (ts : List Token) :
    ∃ more, spaced (x :: ts) = x.text ++ more := by
  cases ts with
  | nil => exact ⟨[], by rw [spaced_single, List.append_nil]⟩
  | cons y ts => exact ⟨_, spaced_cons_cons x y ts⟩

/-- Tokens are found again in the text that has a space between each two of them. -/
theorem scans_spaced (whole : ∀ x ∈ ts, x.Whole) (p : Nat) :
    ∃ us, Scans p (spaced ts) us ∧ us.map lexed = ts.map lexed := by
  induction ts generalizing p with
  | nil => exact ⟨[], .done, rfl⟩
  | cons x ts ih =>
    obtain ⟨first, rest⟩ := List.forall_mem_cons.mp whole
    cases ts with
    | nil =>
      have alone := first.scans (s := []) (p := p) nofun .done
      rw [List.append_nil] at alone
      refine ⟨[{ x with position := p }], ?_, rfl⟩
      rw [spaced_single]
      exact alone
    | cons y ts =>
      obtain ⟨us, scans, same⟩ := ih rest (p + x.text.length + 1)
      refine ⟨{ x with position := p } :: us, ?_, congrArg (lexed x :: ·) same⟩
      have parted : Parted (' ' :: spaced (y :: ts)) := by
        rintro d ⟨⟩
        exact .inr rfl
      obtain ⟨more, text⟩ := exists_spaced_cons y ts
      have visible := (rest y List.mem_cons_self).visible more
      rw [← text] at visible
      rw [spaced_cons_cons]
      exact first.scans parted (scans.space visible)

end ChatCommands.Token
