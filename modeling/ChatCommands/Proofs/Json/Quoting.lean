import ChatCommands.Json.Read
import ChatCommands.Json.Write
import ChatCommands.Proofs.Text.Decimal

/-!
Strings in JSON, written and read back.

What is written is ASCII: a character outside it is one escape or, beyond the basic plane, the two
of a surrogate pair. The reader goes through the code units, so the proof does too: each character
stands for its units, and the units of a text give the text.
-/

namespace ChatCommands.Json

/-- The code units of a character: itself, or the halves of its surrogate pair. -/
def unitsOf (c : Char) : List Nat :=
  if c.toNat < 0x10000 then [c.toNat]
  else [0xd800 + (c.toNat - 0x10000) / 0x400, 0xdc00 + (c.toNat - 0x10000) % 0x400]

theorem toNat_valid (c : Char) : c.toNat < 0xd800 ∨ 0xdfff < c.toNat ∧ c.toNat < 0x110000 :=
  c.valid

theorem joinUnits_unitsOf (c : Char) (rest : List Nat) :
    joinUnits (unitsOf c ++ rest) = c :: joinUnits rest := by
  have valid := toNat_valid c
  unfold unitsOf
  split
  · have whole : isHighSurrogate c.toNat = false := by
      simp only [isHighSurrogate, Bool.and_eq_false_imp, decide_eq_true_eq, decide_eq_false_iff_not]
      omega
    have low : isLowSurrogate c.toNat = false := by
      simp only [isLowSurrogate, Bool.and_eq_false_imp, decide_eq_true_eq, decide_eq_false_iff_not]
      omega
    have unit : joinUnits.unitChar c.toNat = c := by
      simp [joinUnits.unitChar, whole, low]
    cases rest with
    | nil => simp [joinUnits, unit]
    | cons n rest => simp [joinUnits, whole, unit]
  · rename_i large
    have high : isHighSurrogate (0xd800 + (c.toNat - 0x10000) / 0x400) = true := by
      simp only [isHighSurrogate, Bool.and_eq_true, decide_eq_true_eq]
      omega
    have low : isLowSurrogate (0xdc00 + (c.toNat - 0x10000) % 0x400) = true := by
      simp only [isLowSurrogate, Bool.and_eq_true, decide_eq_true_eq]
      omega
    have code : 0x10000 + (0xd800 + (c.toNat - 0x10000) / 0x400 - 0xd800) * 0x400 +
        (0xdc00 + (c.toNat - 0x10000) % 0x400 - 0xdc00) = c.toNat := by omega
    simp only [List.cons_append, List.nil_append, joinUnits, high, low, Bool.and_self, if_true]
    rw [code, Char.ofNat_toNat]

theorem joinUnits_flatMap (t : Text) : joinUnits (t.flatMap unitsOf) = t := by
  induction t with
  | nil => rfl
  | cons c t ih => rw [List.flatMap_cons, joinUnits_unitsOf, ih]

theorem hexUnit?_digits {n : Nat} (h : n < 0x10000) :
    hexUnit? (Nat.digitChar (n / 4096)) (Nat.digitChar (n / 256 % 16))
      (Nat.digitChar (n / 16 % 16)) (Nat.digitChar (n % 16)) = some n := by
  have digit : ∀ d < 16, hexDigit? (Nat.digitChar d) = some d := by decide
  have value : ((n / 4096 * 16 + n / 256 % 16) * 16 + n / 16 % 16) * 16 + n % 16 = n := by omega
  simp [hexUnit?, digit (n / 4096) (by omega), digit (n / 256 % 16) (by omega),
    digit (n / 16 % 16) (by omega), digit (n % 16) (by omega), value]

/-- The units of some text, read in front of what follows. -/
def consUnits (units : List Nat) (r : Except ReadError (List Nat × Cursor)) :
    Except ReadError (List Nat × Cursor) :=
  r.map fun (later, cursor) => (units ++ later, cursor)

theorem consUnit_eq (n : Nat) (r : Except ReadError (List Nat × Cursor)) :
    consUnit n r = consUnits [n] r := rfl

theorem consUnits_consUnits (units more : List Nat) (r : Except ReadError (List Nat × Cursor)) :
    consUnits units (consUnits more r) = consUnits (units ++ more) r := by
  cases r <;> simp [consUnits, Except.map]

theorem readUnits_escaped {e d : Char} {start position : Nat} {rest : Text} (mark : e ≠ 'u')
    (known : escaped? e = some d) :
    readUnits start position ('\\' :: e :: rest) =
      consUnits [d.toNat] (readUnits start (position + 2) rest) := by
  rw [readUnits.eq_def]
  simp [mark, known, consUnit_eq]

theorem readUnits_plain {c : Char} {start position : Nat} {rest : Text} (quote : c ≠ '\x22')
    (slash : c ≠ '\\') (printable : ¬ c.toNat < 0x20) :
    readUnits start position (c :: rest) =
      consUnits [c.toNat] (readUnits start (position + 1) rest) := by
  rw [readUnits.eq_def]
  simp [quote, slash, printable, consUnit_eq]

theorem readUnits_code {n start position : Nat} {rest : Text} (h : n < 0x10000)
    (more : rest ≠ []) :
    readUnits start position ("\\u".toList ++ Text.hex 4 n ++ rest) =
      consUnits [n] (readUnits start (position + 6) rest) := by
  have here : rest.isEmpty = false := by simpa using more
  rw [Text.hex_four h]
  change readUnits start position ('\\' :: 'u' :: _) = _
  rw [readUnits.eq_def]
  simp [hexUnit?_digits h, here, consUnit_eq]

/-- A character that is written with a mark of its own is read as its one unit. -/
theorem readUnits_short {c e : Char} {start position : Nat} {rest : Text}
    (basic : c.toNat < 0x10000) (mark : e ≠ 'u') (known : escaped? e = some c) :
    ∃ next, readUnits start position ('\\' :: e :: rest) =
      consUnits (unitsOf c) (readUnits start next rest) := by
  have units : unitsOf c = [c.toNat] := if_pos basic
  exact ⟨position + 2, units ▸ readUnits_escaped mark known⟩

/-- What one character is written as is read as its units. -/
theorem readUnits_escapeChar (c : Char) (start position : Nat) {rest : Text} (more : rest ≠ []) :
    ∃ next, readUnits start position (escapeChar true c ++ rest) =
      consUnits (unitsOf c) (readUnits start next rest) := by
  unfold escapeChar
  split
  · rename_i mark
    rcases mark with rfl | rfl
    · exact readUnits_short (by decide) (by decide) rfl
    · exact readUnits_short (by decide) (by decide) rfl
  split
  · subst c
    exact readUnits_short (by decide) (by decide) rfl
  split
  · subst c
    exact readUnits_short (by decide) (by decide) rfl
  split
  · subst c
    exact readUnits_short (by decide) (by decide) rfl
  split
  · subst c
    exact readUnits_short (by decide) (by decide) rfl
  split
  · subst c
    exact readUnits_short (by decide) (by decide) rfl
  split
  · unfold escapeCode unitsOf
    split
    · rename_i basic
      exact ⟨position + 6, readUnits_code basic more⟩
    -- Past the basic plane a character is written as two codes, which are read one by one.
    · have valid := toNat_valid c
      have high : 0xd800 + (c.toNat - 0x10000) / 0x400 < 0x10000 := by omega
      have low : 0xdc00 + (c.toNat - 0x10000) % 0x400 < 0x10000 := by omega
      refine ⟨position + 6 + 6, ?_⟩
      rw [List.append_assoc, List.append_assoc ("\\u".toList ++ _), readUnits_code high (by simp),
        ← List.append_assoc, readUnits_code low more, consUnits_consUnits]
      rfl
  · rename_i noMark _ _ _ _ _ plain
    have printable : ¬ c.toNat < 0x20 := fun h => plain (.inl h)
    have ascii : c.toNat < 0x10000 := by
      have : ¬ 0x7e < c.toNat := fun h => plain (.inr ⟨rfl, h⟩)
      omega
    have noQuote : c ≠ '\x22' := fun h => noMark (.inl h)
    have noSlash : c ≠ '\\' := fun h => noMark (.inr h)
    have units : unitsOf c = [c.toNat] := if_pos ascii
    exact ⟨position + 1, units ▸ readUnits_plain noQuote noSlash printable⟩

theorem readUnits_writeText (t : Text) (start position : Nat) (rest : Text) :
    ∃ next, readUnits start position (t.flatMap (escapeChar true) ++ '\x22' :: rest) =
      .ok (t.flatMap unitsOf, ⟨next, rest⟩) := by
  induction t generalizing position with
  | nil =>
    refine ⟨position + 1, ?_⟩
    rw [List.flatMap_nil, List.nil_append, readUnits.eq_def]
    simp
  | cons c t ih =>
    rw [List.flatMap_cons, List.append_assoc]
    have more : t.flatMap (escapeChar true) ++ '\x22' :: rest ≠ [] := by simp
    obtain ⟨next, first⟩ := readUnits_escapeChar c start position more
    obtain ⟨final, later⟩ := ih next
    exact ⟨final, by rw [first, later]; rfl⟩

/-- A string that is written is read as what it says. -/
theorem readString_writeText (t : Text) (start : Nat) (rest : Text) :
    ∃ next, readString start (t.flatMap (escapeChar true) ++ '\x22' :: rest) =
      .ok (t, ⟨next, rest⟩) := by
  obtain ⟨next, units⟩ := readUnits_writeText t start (start + 1) rest
  exact ⟨next, by simp [readString, units, Except.map, joinUnits_flatMap]⟩

end ChatCommands.Json
