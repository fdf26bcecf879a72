import ChatCommands.Json.Read
import ChatCommands.Proofs.Result
import ChatCommands.Proofs.Template.Closed

/-!
Unescaping leaves JSON as it is.

A backslash in JSON stands in a string, in front of a character that begins an escape there. The
reader takes the two together, as the walk that unescapes a text does, so the pairs that the two
meet are the same. None of the characters behind a backslash is a brace or a bracket.
-/

namespace ChatCommands.Json

variable {characters : Text}

/-- Whether no escape of a string in JSON begins with one of some characters. -/
def Foreign (characters : Text) : Prop :=
  ∀ d ∈ characters, d ≠ 'u' ∧ escaped? d = none

/-- Whether the part of a text before the rest is whole and has nothing to unescape. -/
def Passes (characters t rest : Text) : Prop :=
  ∃ u : Text, t = u ++ rest ∧ u.dangling = false ∧ unescape characters u = u

namespace Passes

variable {t rest : Text}

theorem refl (t : Text) : Passes characters t t :=
  ⟨[], rfl, rfl, rfl⟩

theorem trans {later : Text} (first : Passes characters t rest)
    (second : Passes characters rest later) : Passes characters t later := by
  obtain ⟨u, rfl, whole, same⟩ := first
  obtain ⟨v, rfl, whole', same'⟩ := second
  refine ⟨u ++ v, (List.append_assoc u v later).symm, ?_, ?_⟩
  · rw [Text.dangling_append whole, whole']
  · rw [unescape_append whole, same, same']

theorem single {c : Char} (other : c ≠ '\\') (rest : Text) : Passes characters (c :: rest) rest :=
  ⟨[c], rfl, by rw [Text.dangling_single other]; rfl, rfl⟩

theorem plain {u : Text} (others : '\\' ∉ u) (rest : Text) : Passes characters (u ++ rest) rest := by
  induction u with
  | nil => exact refl rest
  | cons c u ih =>
    rw [List.mem_cons, not_or] at others
    exact (single (Ne.symm others.1) (u ++ rest)).trans (ih others.2)

theorem escape {d : Char} (foreign : d ∉ characters) (rest : Text) :
    Passes characters ('\\' :: d :: rest) rest := by
  refine ⟨['\\', d], rfl, Text.dangling_escaped d [], ?_⟩
  simp [unescape, foreign]

theorem unescape_eq (h : Passes characters t []) : unescape characters t = t := by
  obtain ⟨u, rfl, _, same⟩ := h
  rw [List.append_nil, same]

end Passes

/-! ### Strings -/

theorem ne_of_hexDigit {c : Char} {n : Nat} (digit : hexDigit? c = some n) : '\\' ≠ c := by
  rintro rfl
  cases digit

theorem not_mem_of_hexUnit {p q r s : Char} {n : Nat} (unit : hexUnit? p q r s = some n) :
    '\\' ∉ [p, q, r, s] := by
  simp only [hexUnit?, Option.bind_eq_bind, Option.bind_eq_some_iff] at unit
  obtain ⟨_, hp, _, hq, _, hr, _, hs, _⟩ := unit
  simp [ne_of_hexDigit hp, ne_of_hexDigit hq, ne_of_hexDigit hr, ne_of_hexDigit hs]

section Foreign

variable (foreign : Foreign characters)
include foreign

theorem passes_readUnits {start position : Nat} {t : Text} {units : List Nat} {next : Cursor}
    (h : readUnits start position t = .ok (units, next)) : Passes characters t next.rest := by
  -- Each backslash pair of the string is one step of the walk too; after `u` come four digits,
  -- none of which is a backslash, so that the next pair begins at the same place for both.
  fun_induction readUnits start position t generalizing units with
  | case1 | case3 | case4 | case5 | case7 | case8 | case10 => cases h
  | case2 _ rest =>
    cases h
    exact .single (by decide) rest
  | case6 _ p q r s after unit hex _ _ ih =>
    obtain ⟨⟨more, _⟩, read, same⟩ := map_eq_ok.mp h
    cases same
    have letter : 'u' ∉ characters := fun member => (foreign _ member).1 rfl
    have digits : Passes characters (p :: q :: r :: s :: after) after :=
      .plain (not_mem_of_hexUnit hex) after
    exact (Passes.escape letter _).trans (digits.trans (ih read))
  | case9 _ e more _ d known _ ih =>
    obtain ⟨⟨_, _⟩, read, same⟩ := map_eq_ok.mp h
    cases same
    have letter : e ∉ characters := fun member => by
      rw [(foreign e member).2] at known
      cases known
    exact (Passes.escape letter more).trans (ih read)
  | case11 _ c rest _ other _ ih =>
    obtain ⟨⟨_, _⟩, read, same⟩ := map_eq_ok.mp h
    cases same
    exact (Passes.single other rest).trans (ih read)

theorem passes_readString {start : Nat} {t u : Text} {next : Cursor}
    (h : readString start t = .ok (u, next)) : Passes characters t next.rest := by
  obtain ⟨⟨units, _⟩, read, same⟩ := map_eq_ok.mp h
  cases same
  exact passes_readUnits foreign read

end Foreign

/-! ### Space, signs and numerals -/

namespace Passes

variable {t rest : Text} {c : Cursor}

theorem dropWhile {p : Char → Bool} (other : p '\\' = false) (t : Text) :
    Passes characters t (t.dropWhile p) := by
  have others : '\\' ∉ t.takeWhile p := fun member => by
    have taken := List.all_eq_true.mp List.all_takeWhile _ member
    rw [other] at taken
    cases taken
  have passes : Passes characters (t.takeWhile p ++ t.dropWhile p) (t.dropWhile p) :=
    plain others _
  rwa [List.takeWhile_append_dropWhile] at passes

theorem skipSpace (c : Cursor) : Passes characters c.rest c.skipSpace.rest := by
  have split := List.prefix_iff_eq_append.mp (List.takeWhile_prefix Cursor.isSpace (l := c.rest))
  have same : c.rest.dropWhile Cursor.isSpace = c.skipSpace.rest := by
    have whole := List.takeWhile_append_dropWhile (p := Cursor.isSpace) (l := c.rest)
    exact List.append_cancel_left (whole.trans split.symm)
  exact same ▸ dropWhile rfl c.rest

theorem skip (word : Text) (starts : c.startsWith word) (others : '\\' ∉ word) :
    Passes characters c.rest (c.skip word.length).rest := by
  have split := List.prefix_iff_eq_append.mp (List.isPrefixOf_iff_prefix.mp starts)
  have passes : Passes characters (word ++ c.rest.drop word.length) (c.rest.drop word.length) :=
    plain others _
  rwa [split] at passes

theorem opening {d : Char} (first : c.rest = d :: rest) (other : d ≠ '\\') :
    Passes characters c.rest (c.skip 1).skipSpace.rest := by
  have starts : c.startsWith [d] = true := by
    rw [Cursor.startsWith, first]
    simp
  have others : '\\' ∉ [d] := by simpa using Ne.symm other
  exact (skip [d] starts others).trans (skipSpace _)

theorem wholePart {whole : Text} (h : wholePart t = some (whole, rest)) :
    Passes characters t rest := by
  unfold Json.wholePart at h
  split at h
  · cases h
    exact single (by decide) _
  · split at h
    · cases h
    · cases h
      exact dropWhile rfl t

theorem fractionPart (t : Text) : Passes characters t (fractionPart t).2 := by
  unfold Json.fractionPart
  split
  · split
    · exact refl _
    · exact (single (by decide) _).trans (dropWhile rfl _)
  · exact refl t

theorem sign (t : Text) : Passes characters t (Numeral.sign t).2 := by
  unfold Numeral.sign
  split
  · exact single (by decide) _
  · exact single (by decide) _
  · exact refl t

theorem exponentPart {power : Int} {extra : Nat} (h : exponentPart t = some (power, extra, rest)) :
    Passes characters t rest := by
  unfold Json.exponentPart at h
  split at h
  · rename_i c more
    split at h
    · rename_i letter
      have other : c ≠ '\\' := by
        rintro rfl
        revert letter
        decide
      dsimp only at h
      split at h
      · cases h
      · cases h
        exact (single other more).trans ((sign more).trans (dropWhile rfl _))
    · cases h
  · cases h

theorem readNumber {j : Json} {next : Cursor} (h : readNumber c = .ok (j, next)) :
    Passes characters c.rest next.rest := by
  simp only [Json.readNumber] at h
  split at h
  · cases h
  · rename_i whole afterWhole part
    have signed : Passes characters c.rest
        (if c.startsWith ['-'] = true then c.rest.drop 1 else c.rest) := by
      split
      · rename_i minus
        exact skip ['-'] minus (by decide)
      · exact refl _
    have front := signed.trans ((wholePart part).trans (fractionPart afterWhole))
    split at h
    · rename_i exponent
      cases h
      exact front.trans (exponentPart exponent)
    split at h
    · cases h
      exact front
    split at h
    · cases h
    · cases h
      exact front

theorem readWord {j : Json} {next : Cursor} (h : readWord c = .ok (j, next)) :
    Passes characters c.rest next.rest := by
  unfold Json.readWord at h
  split at h
  · rename_i word value found
    cases h
    have letters : ∀ w ∈ words, '\\' ∉ w.1 := by decide
    have starts := List.find?_some found
    exact skip word starts (letters _ (List.mem_of_find?_eq_some found))
  · exact readNumber h

end Passes

/-! ### Values -/

/-- With so much fuel each reader passes over what it reads. -/
structure ReadsPast (characters : Text) (fuel : Nat) : Prop where
  value {c next : Cursor} {j : Json} :
    readValue fuel c = .ok (j, next) → Passes characters c.rest next.rest
  items {c next : Cursor} {xs : List Json} :
    readItems fuel c = .ok (xs, next) → Passes characters c.rest next.rest
  fields {c next : Cursor} {xs : List (Text × Json)} :
    readFields fuel c = .ok (xs, next) → Passes characters c.rest next.rest

namespace ReadsPast

variable {fuel : Nat} {c next : Cursor} (ih : ReadsPast characters fuel)
include ih

theorem items_succ {xs : List Json} (h : readItems (fuel + 1) c = .ok (xs, next)) :
    Passes characters c.rest next.rest := by
  rw [readItems] at h
  obtain ⟨⟨x, after⟩, first, h⟩ := bind_eq_ok.mp h
  have front := (ih.value first).trans (.skipSpace after)
  dsimp only at h
  split at h
  · rename_i bracket
    cases h
    exact front.trans (.skip [']'] bracket (by decide))
  split at h
  · rename_i comma
    obtain ⟨⟨rest, _⟩, later, same⟩ := bind_eq_ok.mp h
    cases same
    have passed := front.trans (.skip [','] comma (by decide))
    exact passed.trans ((Passes.skipSpace _).trans (ih.items later))
  · cases h

variable (foreign : Foreign characters)
include foreign

theorem value_succ {j : Json} (h : readValue (fuel + 1) c = .ok (j, next)) :
    Passes characters c.rest next.rest := by
  rw [readValue] at h
  split at h
  · rename_i rest starts
    obtain ⟨⟨t, _⟩, read, same⟩ := map_eq_ok.mp h
    cases same
    rw [starts]
    exact (Passes.single (by decide) rest).trans (passes_readString foreign read)
  · rename_i rest first
    have opened : Passes characters c.rest (c.skip 1).skipSpace.rest :=
      .opening first (by decide)
    dsimp only at h
    split at h
    · rename_i bracket
      cases h
      exact opened.trans (.skip [']'] bracket (by decide))
    · obtain ⟨⟨xs, _⟩, inside, same⟩ := map_eq_ok.mp h
      cases same
      exact opened.trans (ih.items inside)
  · rename_i rest first
    have opened : Passes characters c.rest (c.skip 1).skipSpace.rest :=
      .opening first (by decide)
    dsimp only at h
    split at h
    · rename_i brace
      cases h
      exact opened.trans (.skip ['\x7d'] brace (by decide))
    · obtain ⟨⟨xs, _⟩, inside, same⟩ := map_eq_ok.mp h
      cases same
      exact opened.trans (ih.fields inside)
  · exact .readWord h

theorem fields_succ {xs : List (Text × Json)} (h : readFields (fuel + 1) c = .ok (xs, next)) :
    Passes characters c.rest next.rest := by
  rw [readFields] at h
  split at h
  · cases h
  rename_i quote
  obtain ⟨⟨name, after⟩, named, h⟩ := bind_eq_ok.mp h
  have start : c.startsWith ['\x22'] = true := by simpa using quote
  have front := ((Passes.skip ['\x22'] start (by decide)).trans
    (passes_readString foreign named)).trans (.skipSpace after)
  dsimp only at h
  split at h
  · cases h
  rename_i colon
  obtain ⟨⟨v, behind⟩, first, h⟩ := bind_eq_ok.mp h
  have sign : after.skipSpace.startsWith [':'] = true := by simpa using colon
  have passed := (front.trans ((Passes.skip [':'] sign (by decide)).trans
    (.skipSpace _))).trans ((ih.value first).trans (.skipSpace behind))
  dsimp only at h
  split at h
  · rename_i brace
    cases h
    exact passed.trans (.skip ['\x7d'] brace (by decide))
  split at h
  · rename_i comma
    obtain ⟨⟨rest, _⟩, later, same⟩ := bind_eq_ok.mp h
    cases same
    have further := passed.trans (.skip [','] comma (by decide))
    exact further.trans ((Passes.skipSpace _).trans (ih.fields later))
  · cases h

end ReadsPast

theorem readsPast (foreign : Foreign characters) (fuel : Nat) : ReadsPast characters fuel := by
  induction fuel with
  | zero => exact ⟨fun h => (nomatch h), fun h => (nomatch h), fun h => (nomatch h)⟩
  | succ fuel ih => exact ⟨ih.value_succ foreign, ih.items_succ, ih.fields_succ foreign⟩

/-- JSON has nothing to unescape. -/
theorem unescape_of_read (foreign : Foreign characters) {t : Text} {j : Json}
    (h : read t = .ok j) : unescape characters t = t := by
  simp only [read] at h
  split at h
  · cases h
  · obtain ⟨⟨v, next⟩, first, h⟩ := bind_eq_ok.mp h
    dsimp only at h
    split at h
    · rename_i done
      have passed := (Passes.skipSpace ⟨0, t⟩).trans
        (((readsPast foreign _).value first).trans (.skipSpace next))
      rw [List.isEmpty_iff.mp done] at passed
      exact passed.unescape_eq
    · cases h

end ChatCommands.Json
