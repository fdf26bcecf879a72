import ChatCommands.Proofs.Json.Fields
import ChatCommands.Proofs.Json.Quoting

/-!
Indented JSON, read back.

Values of every kind but floats are read as they were written. The one thing in the way is an
integer with too many digits, which can be written but not be read; `long` stands for that excuse
throughout, and is false where every integer is short.
-/

namespace ChatCommands.Json

open Text

mutual
/-- Values without floats, whose objects have distinct names. -/
def Plain (long : Prop) : Json → Prop
  | .scalar (.int n) => ¬ Numeral.Short n → long
  | .scalar (.float _) => False
  | .scalar _ => True
  | .array items => PlainItems long items
  | .object fields => PlainFields long fields ∧ (fields.map Prod.fst).Nodup
def PlainItems (long : Prop) : List Json → Prop
  | [] => True
  | x :: rest => Plain long x ∧ PlainItems long rest
def PlainFields (long : Prop) : List (Text × Json) → Prop
  | [] => True
  | (_, v) :: rest => Plain long v ∧ PlainFields long rest
end

theorem plainItems_iff {long : Prop} {items : List Json} :
    PlainItems long items ↔ ∀ x ∈ items, Plain long x := by
  induction items with
  | nil => simp [PlainItems]
  | cons x rest ih => simp [PlainItems, ih]

theorem plainFields_iff {long : Prop} {fields : List (Text × Json)} :
    PlainFields long fields ↔ ∀ field ∈ fields, Plain long field.2 := by
  induction fields with
  | nil => simp [PlainFields]
  | cons field rest ih => simp [PlainFields, ih]

/-- A reader that gives `a` and leaves `rest`, unless it stops at an integer with too many
digits. -/
def Gives (long : Prop) (a : α) (rest : Text) (r : Except ReadError (α × Cursor)) : Prop :=
  (∃ next, r = .ok (a, ⟨next, rest⟩)) ∨ long ∧ r = .error .tooManyDigits

section Gives

variable {long : Prop} {a : α} {b : β} {rest rest' : Text} {r : Except ReadError (α × Cursor)}

theorem Gives.of_ok {next : Nat} (h : r = .ok (a, ⟨next, rest⟩)) : Gives long a rest r :=
  .inl ⟨next, h⟩

theorem Gives.map (h : Gives long a rest r) (f : α → β) :
    Gives long (f a) rest (r.map fun (x, next) => (f x, next)) := by
  rcases h with ⟨next, rfl⟩ | ⟨excuse, rfl⟩
  · exact .of_ok rfl
  · exact .inr ⟨excuse, rfl⟩

theorem Gives.bind {f : α × Cursor → Except ReadError (β × Cursor)} (h : Gives long a rest r)
    (later : ∀ next, Gives long b rest' (f (a, ⟨next, rest⟩))) : Gives long b rest' (r >>= f) := by
  rcases h with ⟨next, rfl⟩ | ⟨excuse, rfl⟩
  · exact later next
  · exact .inr ⟨excuse, rfl⟩

end Gives

/-! ### Spaces and signs -/

namespace Cursor

theorem skipSpace_pad {pad rest : Text} {c : Char} {p : Nat} (blank : ∀ s ∈ pad, isSpace s = true)
    (sign : isSpace c = false) :
    skipSpace ⟨p, pad ++ c :: rest⟩ = ⟨p + pad.length, c :: rest⟩ := by
  have padding : (pad ++ c :: rest).takeWhile isSpace = pad := by
    rw [List.takeWhile_append_of_pos blank, List.takeWhile_cons_of_neg (by simp [sign]),
      List.append_nil]
  simp [skipSpace, skip, padding]

theorem skipSpace_sign {rest : Text} {c : Char} {p : Nat} (sign : isSpace c = false) :
    skipSpace ⟨p, c :: rest⟩ = ⟨p, c :: rest⟩ :=
  skipSpace_pad (List.forall_mem_nil _) sign

end Cursor

theorem isSpace_lineBreak (depth : Nat) : ∀ s ∈ lineBreak depth, Cursor.isSpace s = true := by
  intro s hs
  rcases List.mem_cons.mp hs with rfl | blank
  · rfl
  · rw [List.eq_of_mem_replicate blank]
    rfl

/-- What may follow a value: the end, a comma or a line break. -/
def Stops (rest : Text) : Prop :=
  ∀ c ∈ rest.head?, c = ',' ∨ c = '\n'

/-- How a written value begins. -/
def Opening (c : Char) : Prop :=
  c = '\x22' ∨ c = '[' ∨ c = '\x7b' ∨ c = '-' ∨ c = 'n' ∨ c = 't' ∨ c = 'f' ∨ c.isDigit = true

theorem Opening.ne {c d : Char} (h : Opening c) (other : ¬ Opening d) : c ≠ d :=
  fun same => other (same ▸ h)

theorem Opening.not_space {c : Char} (h : Opening c) : Cursor.isSpace c = false := by
  have : ¬ (c = ' ' ∨ c = '\t' ∨ c = '\n' ∨ c = '\r') := by
    rintro (rfl | rfl | rfl | rfl) <;> revert h <;> simp [Opening]
  simp only [not_or] at this
  simp [Cursor.isSpace, this]

/-! ### Numerals and words -/

theorem ofNat_cons (n : Nat) : ∃ c rest, ofNat n = c :: rest ∧ c.isDigit = true := by
  cases h : ofNat n with
  | nil => exact absurd h (ofNat_ne_nil n)
  | cons c rest => exact ⟨c, rest, rfl, isDigit_of_mem_ofNat (h ▸ List.mem_cons_self)⟩

theorem ne_of_isDigit {c d : Char} (digit : c.isDigit = true) (other : d.isDigit = false) :
    c ≠ d := by
  rintro rfl
  simp [digit] at other

theorem Stops.not_digit {rest : Text} (stops : Stops rest) :
    rest.takeWhile isAsciiDigit = [] ∧ rest.dropWhile isAsciiDigit = rest := by
  cases rest with
  | nil => exact ⟨rfl, rfl⟩
  | cons c rest =>
    have : isAsciiDigit c = false := by
      rcases stops c rfl with rfl | rfl <;> rfl
    simp [this]

theorem asciiDigits_ofNat (n : Nat) {rest : Text} (stops : Stops rest) :
    asciiDigits (ofNat n ++ rest) = (ofNat n, rest) := by
  have digits : ∀ c ∈ ofNat n, isAsciiDigit c = true := fun c h => isDigit_of_mem_ofNat h
  have after := stops.not_digit
  rw [asciiDigits, List.takeWhile_append_of_pos digits, List.dropWhile_append_of_pos digits,
    after.1, after.2, List.append_nil]

theorem wholePart_ofNat (n : Nat) {rest : Text} (stops : Stops rest) :
    wholePart (ofNat n ++ rest) = some (ofNat n, rest) := by
  rcases Nat.eq_zero_or_pos n with rfl | positive
  · rfl
  · have first := head_ofNat positive
    have run := asciiDigits_ofNat n stops
    obtain ⟨c, ds, same, -⟩ := ofNat_cons n
    rw [same] at first run ⊢
    have notZero : c ≠ '0' := by simpa using first
    simp only [List.cons_append] at run ⊢
    unfold wholePart
    split
    · rename_i zero
      exact absurd (List.cons.inj zero).1 notZero
    · simp [run]

theorem Stops.no_fraction {rest : Text} (stops : Stops rest) : fractionPart rest = ([], rest) := by
  cases rest with
  | nil => rfl
  | cons c rest => rcases stops c rfl with rfl | rfl <;> rfl

theorem Stops.no_exponent {rest : Text} (stops : Stops rest) : exponentPart rest = none := by
  cases rest with
  | nil => rfl
  | cons c rest => rcases stops c rfl with rfl | rfl <;> rfl

theorem readNumber_signed {negative : Bool} {m p : Nat} {t rest : Text} (stops : Stops rest)
    (sign : Cursor.startsWith ⟨p, t⟩ ['-'] = negative)
    (body : (if negative then t.drop 1 else t) = ofNat m ++ rest) :
    Gives (Numeral.maxDigits < (ofNat m).length) (int (if negative then -(m : Int) else m)) rest
      (readNumber ⟨p, t⟩) := by
  have value : digitsValue (ofNat m) = m := Numeral.ofDigits_map_ofNat m
  unfold readNumber
  simp only [sign, body, wholePart_ofNat m stops, stops.no_fraction, stops.no_exponent, value,
    List.isEmpty_nil, Bool.not_true, Bool.false_eq_true, if_false]
  by_cases long : Numeral.maxDigits < (ofNat m).length
  · exact .inr ⟨long, if_pos long⟩
  · exact .of_ok (if_neg long)

theorem readNumber_ofInt (n : Int) {p : Nat} {rest : Text} (stops : Stops rest) :
    Gives (¬ Numeral.Short n) (int n) rest (readNumber ⟨p, ofInt n ++ rest⟩) := by
  obtain ⟨c, ds, same, digit⟩ := ofNat_cons n.natAbs
  have long : (Numeral.maxDigits < (ofNat n.natAbs).length) = ¬ Numeral.Short n :=
    propext Nat.not_le.symm
  rcases Int.lt_or_le n 0 with negative | positive
  · have sign : Cursor.startsWith ⟨p, ofInt n ++ rest⟩ ['-'] = true := by
      rw [ofInt_of_neg negative]
      rfl
    have read := readNumber_signed (m := n.natAbs) stops sign
      (by rw [ofInt_of_neg negative]; rfl)
    have abs : (if true then -(n.natAbs : Int) else n.natAbs) = n := by rw [if_pos rfl]; omega
    rwa [abs, long] at read
  · have noSign : Cursor.startsWith ⟨p, ofInt n ++ rest⟩ ['-'] = false := by
      have : '-' ≠ c := (ne_of_isDigit digit rfl).symm
      simp [Cursor.startsWith, ofInt_of_nonneg positive, same, List.isPrefixOf, this]
    have read := readNumber_signed (m := n.natAbs) stops noSign
      (by rw [ofInt_of_nonneg positive]; rfl)
    have abs : (if false then -(n.natAbs : Int) else n.natAbs) = n := by
      rw [if_neg Bool.false_ne_true]; omega
    rwa [abs, long] at read

/-- No word begins as an integer does. -/
theorem readWord_ofInt (n : Int) {p : Nat} {rest : Text} (stops : Stops rest) :
    Gives (¬ Numeral.Short n) (int n) rest (readWord ⟨p, ofInt n ++ rest⟩) := by
  have none : words.find? (fun w => Cursor.startsWith ⟨p, ofInt n ++ rest⟩ w.1) = none := by
    obtain ⟨c, ds, same, digit⟩ := ofNat_cons n.natAbs
    have apart (d : Char) (other : d.isDigit = false) : ¬ d = c := (ne_of_isDigit digit other).symm
    rcases Int.lt_or_le n 0 with negative | positive
    · simp [words, Cursor.startsWith, ofInt_of_neg negative, same, apart]
    · simp [words, Cursor.startsWith, ofInt_of_nonneg positive, same, apart]
  rw [readWord, none]
  exact readNumber_ofInt n stops

/-! ### Layout -/

theorem spread_cons (opening closing : Char) (depth : Nat) (p : Text) (rest : List Text) :
    spread opening closing depth (p :: rest) =
      opening :: (lineBreak (depth + 1) ++ (join (',' :: lineBreak (depth + 1)) (p :: rest) ++
        (lineBreak depth ++ [closing]))) := by
  simp [spread]

theorem spread_opening (opening closing : Char) (depth : Nat) (parts : List Text) :
    ∃ rest, spread opening closing depth parts = opening :: rest := by
  cases parts with
  | nil => exact ⟨_, rfl⟩
  | cons p rest => exact ⟨_, spread_cons ..⟩

theorem writeIndented_opening {long : Prop} {j : Json} (h : Plain long j) (depth : Nat) :
    ∃ c rest, j.writeIndented depth = c :: rest ∧ Opening c := by
  cases j with
  | array items =>
    obtain ⟨rest, same⟩ := spread_opening '[' ']' depth (indentedItems (depth + 1) items)
    exact ⟨'[', rest, by rw [writeIndented, same], by simp [Opening]⟩
  | object fields =>
    obtain ⟨rest, same⟩ := spread_opening '\x7b' '\x7d' depth (indentedFields (depth + 1) fields)
    exact ⟨'\x7b', rest, by rw [writeIndented, same], by simp [Opening]⟩
  | scalar s =>
    rw [writeIndented]
    cases s with
    | null => exact ⟨'n', _, rfl, by simp [Opening]⟩
    | bool b =>
      cases b with
      | false => exact ⟨'f', _, rfl, by simp [Opening]⟩
      | true => exact ⟨'t', _, rfl, by simp [Opening]⟩
    | float x => simp [Plain] at h
    | text t => exact ⟨'\x22', _, rfl, by simp [Opening]⟩
    | int n =>
      obtain ⟨c, rest, same, digit⟩ := ofNat_cons n.natAbs
      rcases Int.lt_or_le n 0 with negative | positive
      · exact ⟨'-', _, ofInt_of_neg negative, by simp [Opening]⟩
      · exact ⟨c, rest, (ofInt_of_nonneg positive).trans same, by simp [Opening, digit]⟩

theorem Stops.lineBreak (depth : Nat) (rest : Text) : Stops (lineBreak depth ++ rest) := by
  intro c hc
  cases hc
  exact .inr rfl

theorem Stops.comma (rest : Text) : Stops (',' :: rest) := by
  intro c hc
  cases hc
  exact .inl rfl

/-! ### Values -/

theorem readValue_word {fuel p : Nat} {c : Char} {rest : Text} (quote : c ≠ '\x22')
    (square : c ≠ '[') (curly : c ≠ '\x7b') :
    readValue (fuel + 1) ⟨p, c :: rest⟩ = readWord ⟨p, c :: rest⟩ := by
  rw [readValue]
  split
  · rename_i same
    exact absurd (List.cons.inj same).1 quote
  · rename_i same
    exact absurd (List.cons.inj same).1 square
  · rename_i same
    exact absurd (List.cons.inj same).1 curly
  · rfl

theorem readValue_scalar {long : Prop} {s : Scalar} (h : Plain long (.scalar s)) (fuel p : Nat)
    {rest : Text} (stops : Stops rest) :
    Gives long (.scalar s) rest (readValue (fuel + 1) ⟨p, writeScalar true s ++ rest⟩) := by
  cases s with
  | null => exact .of_ok rfl
  | bool b =>
    cases b with
    | false => exact .of_ok rfl
    | true => exact .of_ok rfl
  | float x => simp [Plain] at h
  | text t =>
    obtain ⟨next, read⟩ := readString_writeText t p rest
    refine .inl ⟨next, ?_⟩
    simp only [writeScalar, writeText, List.cons_append, List.append_assoc, readValue,
      List.nil_append, read]
    rfl
  | int n =>
    have number := readWord_ofInt n (p := p) stops
    obtain ⟨c, ds, same, first⟩ : ∃ c ds, ofInt n = c :: ds ∧ (c = '-' ∨ c.isDigit = true) := by
      obtain ⟨c, ds, same, digit⟩ := ofNat_cons n.natAbs
      rcases Int.lt_or_le n 0 with negative | positive
      · exact ⟨'-', _, ofInt_of_neg negative, .inl rfl⟩
      · exact ⟨c, ds, (ofInt_of_nonneg positive).trans same, .inr digit⟩
    have apart (d : Char) (dash : d ≠ '-') (other : d.isDigit = false) : c ≠ d := by
      rintro rfl
      rcases first with rfl | digit
      · exact dash rfl
      · simp [digit] at other
    have word : readValue (fuel + 1) ⟨p, ofInt n ++ rest⟩ = readWord ⟨p, ofInt n ++ rest⟩ := by
      rw [same]
      exact readValue_word (apart _ (by decide) rfl) (apart _ (by decide) rfl)
        (apart _ (by decide) rfl)
    rw [writeScalar, word]
    exact number.imp id fun ⟨excuse, stop⟩ => ⟨h excuse, stop⟩

section Containers

variable {long : Prop} {fuel p k : Nat} {c : Char} {start : Cursor} {t rest : Text}

theorem readValue_items (opens : Opening c) :
    readValue (fuel + 1) ⟨p, '[' :: (lineBreak k ++ c :: t)⟩ =
      (readItems fuel ⟨p + 1 + (lineBreak k).length, c :: t⟩).map
        fun (items, next) => (.array items, next) := by
  have other : ']' ≠ c := (opens.ne (by simp [Opening])).symm
  simp [readValue, Cursor.skip, Cursor.skipSpace_pad (isSpace_lineBreak k) opens.not_space,
    Cursor.startsWith, List.isPrefixOf, other]

theorem readValue_fields (opens : Opening c) :
    readValue (fuel + 1) ⟨p, '\x7b' :: (lineBreak k ++ c :: t)⟩ =
      (readFields fuel ⟨p + 1 + (lineBreak k).length, c :: t⟩).map
        fun (fields, next) => (.object (mergeFields fields), next) := by
  have other : '\x7d' ≠ c := (opens.ne (by simp [Opening])).symm
  simp [readValue, Cursor.skip, Cursor.skipSpace_pad (isSpace_lineBreak k) opens.not_space,
    Cursor.startsWith, List.isPrefixOf, other]

theorem readItems_last {x : Json}
    (here : Gives long x (lineBreak k ++ ']' :: rest) (readValue fuel start)) :
    Gives long [x] rest (readItems (fuel + 1) start) := by
  rw [readItems]
  refine here.bind fun next => ?_
  dsimp only
  rw [Cursor.skipSpace_pad (isSpace_lineBreak k) rfl]
  exact .of_ok rfl

theorem readItems_more {x : Json} {xs : List Json} (opens : Opening c)
    (here : Gives long x (',' :: (lineBreak k ++ c :: t)) (readValue fuel start))
    (later : ∀ next, Gives long xs rest (readItems fuel ⟨next, c :: t⟩)) :
    Gives long (x :: xs) rest (readItems (fuel + 1) start) := by
  rw [readItems]
  refine here.bind fun next => ?_
  dsimp only
  rw [Cursor.skipSpace_sign rfl]
  change Gives long _ _ (readItems fuel (Cursor.skipSpace ⟨next + 1, lineBreak k ++ c :: t⟩) >>= _)
  rw [Cursor.skipSpace_pad (isSpace_lineBreak k) opens.not_space]
  exact (later _).bind fun final => .of_ok rfl

/-- A name, the colon and the space in front of a value are passed, and the value is read. -/
theorem readFields_named (fuel p : Nat) (name t : Text) (opens : Opening c) :
    ∃ next, readFields (fuel + 1) ⟨p, writeText true name ++ (':' :: ' ' :: c :: t)⟩ =
      readValue fuel ⟨next, c :: t⟩ >>= fun (value, next) =>
        let next := next.skipSpace
        if next.startsWith ['\x7d'] then .ok ([(name, value)], next.skip 1)
        else if next.startsWith [','] then
          readFields fuel (next.skip 1).skipSpace >>= fun (fields, final) =>
            .ok ((name, value) :: fields, final)
        else next.fail .comma := by
  obtain ⟨next, read⟩ := readString_writeText name p (':' :: ' ' :: c :: t)
  refine ⟨next + 1 + 1, ?_⟩
  have blank : ∀ s ∈ [' '], Cursor.isSpace s = true := by simp [Cursor.isSpace]
  have space : Cursor.skipSpace ⟨next + 1, ' ' :: c :: t⟩ = ⟨next + 1 + 1, c :: t⟩ :=
    Cursor.skipSpace_pad blank opens.not_space
  have colon : Cursor.skipSpace ⟨next, ':' :: ' ' :: c :: t⟩ = ⟨next, ':' :: ' ' :: c :: t⟩ :=
    Cursor.skipSpace_sign rfl
  have body : writeText true name ++ ':' :: ' ' :: c :: t =
      '\x22' :: (name.flatMap (escapeChar true) ++ '\x22' :: ':' :: ' ' :: c :: t) := by
    simp [writeText]
  rw [body, readFields]
  change (readString p (name.flatMap (escapeChar true) ++ '\x22' :: ':' :: ' ' :: c :: t) >>= _) = _
  rw [read]
  dsimp only [bind, Except.bind]
  rw [colon, if_neg (by simp [Cursor.startsWith])]
  have after : Cursor.skip ⟨next, ':' :: ' ' :: c :: t⟩ 1 = ⟨next + 1, ' ' :: c :: t⟩ := rfl
  rw [after, space]
  rfl

theorem readFields_last {name : Text} {v : Json} (opens : Opening c)
    (here : ∀ next, Gives long v (lineBreak k ++ '\x7d' :: rest) (readValue fuel ⟨next, c :: t⟩)) :
    Gives long [(name, v)] rest
      (readFields (fuel + 1) ⟨p, writeText true name ++ (':' :: ' ' :: c :: t)⟩) := by
  obtain ⟨next, named⟩ := readFields_named fuel p name t opens
  rw [named]
  refine (here next).bind fun next => ?_
  dsimp only
  rw [Cursor.skipSpace_pad (isSpace_lineBreak k) rfl]
  exact .of_ok rfl

theorem readFields_more {name t' : Text} {v : Json} {fields : List (Text × Json)}
    (opens : Opening c)
    (here : ∀ next, Gives long v (',' :: (lineBreak k ++ '\x22' :: t'))
      (readValue fuel ⟨next, c :: t⟩))
    (later : ∀ next, Gives long fields rest (readFields fuel ⟨next, '\x22' :: t'⟩)) :
    Gives long ((name, v) :: fields) rest
      (readFields (fuel + 1) ⟨p, writeText true name ++ (':' :: ' ' :: c :: t)⟩) := by
  obtain ⟨next, named⟩ := readFields_named fuel p name t opens
  rw [named]
  refine (here next).bind fun next => ?_
  dsimp only
  rw [Cursor.skipSpace_sign rfl]
  change Gives long _ _
    (readFields fuel (Cursor.skipSpace ⟨next + 1, lineBreak k ++ '\x22' :: t'⟩) >>= _)
  rw [Cursor.skipSpace_pad (isSpace_lineBreak k) rfl]
  exact (later _).bind fun final => .of_ok rfl

end Containers

theorem join_opening {p : Text} {c : Char} {t : Text} (same : p = c :: t) (separator : Text)
    (parts : List Text) : ∃ t', join separator (p :: parts) = c :: t' := by
  subst same
  cases parts with
  | nil => exact ⟨t, by simp [join]⟩
  | cons q parts => exact ⟨_, join_cons_cons ..⟩

/-- A field as it stands on its line. -/
theorem indentedFields_cons (k : Nat) (name : Text) (v : Json) (fields : List (Text × Json)) :
    indentedFields k ((name, v) :: fields) =
      (writeText true name ++ (':' :: ' ' :: v.writeIndented k)) :: indentedFields k fields := by
  simp [indentedFields]

theorem indentedFields_opening (k : Nat) (name : Text) (v : Json)
    (fields : List (Text × Json)) (separator : Text) :
    ∃ t, join separator (indentedFields k ((name, v) :: fields)) = '\x22' :: t := by
  rw [indentedFields_cons]
  exact join_opening (c := '\x22') rfl _ _

mutual

theorem readValue_writeIndented {long : Prop} : ∀ (j : Json) (_ : Plain long j)
    (depth fuel p : Nat) (rest : Text) (_ : Stops rest)
    (_ : (j.writeIndented depth).length ≤ fuel),
    Gives long j rest (readValue fuel ⟨p, j.writeIndented depth ++ rest⟩)
  | .scalar s, h, depth, fuel, p, rest, stops, enough => by
    obtain ⟨c, t, same, -⟩ := writeIndented_opening h depth
    cases fuel with
    | zero => simp [same] at enough
    | succ fuel => simpa [writeIndented] using readValue_scalar h fuel p stops
  | .array [], _, _, fuel, _, _, _, enough => by
    cases fuel with
    | zero => simp [writeIndented, spread, indentedItems] at enough
    | succ fuel => exact .of_ok rfl
  | .array (x :: xs), h, depth, fuel, p, rest, _, enough => by
    obtain ⟨c, t, first, opens⟩ := writeIndented_opening h.1 (depth + 1)
    obtain ⟨t', begins⟩ := join_opening first (',' :: lineBreak (depth + 1))
      (indentedItems (depth + 1) xs)
    have items := readItems_writeIndented (x :: xs) h (by simp) (depth + 1)
    -- The bracket takes one of the fuel and one character of the text, so the fuel still suffices.
    simp only [writeIndented, indentedItems, spread_cons] at items enough ⊢
    cases fuel with
    | zero => simp at enough
    | succ fuel =>
      have inside := items fuel (p + 1 + (lineBreak (depth + 1)).length) depth rest
        (by simp only [List.length_cons, List.length_append] at enough; omega)
      simp only [List.cons_append, List.append_assoc, List.nil_append, begins] at inside ⊢
      rw [readValue_items opens]
      exact inside.map Json.array
  | .object [], _, _, fuel, _, _, _, enough => by
    cases fuel with
    | zero => simp [writeIndented, spread, indentedFields] at enough
    | succ fuel => exact .of_ok rfl
  | .object ((name, v) :: fields), h, depth, fuel, p, rest, _, enough => by
    obtain ⟨t, begins⟩ := indentedFields_opening (depth + 1) name v fields
      (',' :: lineBreak (depth + 1))
    have inner := readFields_writeIndented ((name, v) :: fields) h.1 (by simp) (depth + 1)
    obtain ⟨q, parts, split⟩ : ∃ q parts,
        indentedFields (depth + 1) ((name, v) :: fields) = q :: parts := ⟨_, _, rfl⟩
    rw [split] at begins
    simp only [writeIndented, split, spread_cons] at inner enough ⊢
    cases fuel with
    | zero => simp at enough
    | succ fuel =>
      have inside := inner fuel (p + 1 + (lineBreak (depth + 1)).length) depth rest
        (by simp only [List.length_cons, List.length_append] at enough; omega)
      simp only [List.cons_append, List.append_assoc, List.nil_append, begins] at inside ⊢
      rw [readValue_fields (by simp [Opening])]
      have whole := inside.map fun fields => Json.object (mergeFields fields)
      rwa [mergeFields_of_nodup h.2] at whole

theorem readItems_writeIndented {long : Prop} : ∀ (items : List Json)
    (_ : PlainItems long items) (_ : items ≠ []) (depth fuel p k : Nat) (rest : Text)
    (_ : (join (',' :: lineBreak depth) (indentedItems depth items)).length < fuel),
    Gives long items rest (readItems fuel ⟨p,
      join (',' :: lineBreak depth) (indentedItems depth items) ++ (lineBreak k ++ ']' :: rest)⟩)
  | [], _, nonempty, _, _, _, _, _, _ => absurd rfl nonempty
  | [x], h, _, depth, fuel, p, k, rest, enough => by
    cases fuel with
    | zero => simp at enough
    | succ fuel =>
      have alone : join (',' :: lineBreak depth) (indentedItems depth [x]) =
          x.writeIndented depth := by simp [indentedItems, join]
      rw [alone] at enough ⊢
      exact readItems_last
        (readValue_writeIndented x h.1 depth fuel p _ (.lineBreak k _) (by omega))
  | x :: y :: ys, h, _, depth, fuel, p, k, rest, enough => by
    cases fuel with
    | zero => simp at enough
    | succ fuel =>
      obtain ⟨c, t, first, opens⟩ := writeIndented_opening h.2.1 depth
      obtain ⟨t', begins⟩ := join_opening first (',' :: lineBreak depth) (indentedItems depth ys)
      have later := readItems_writeIndented (y :: ys) h.2 (by simp) depth fuel
      simp only [indentedItems, join_cons_cons, List.length_append, List.length_cons]
        at later enough ⊢
      simp only [List.append_assoc, List.cons_append, begins] at later ⊢
      exact readItems_more opens
        (readValue_writeIndented x h.1 depth fuel p _ (.comma _) (by omega))
        fun next => later next k _ (by simp only [begins, List.length_cons] at enough ⊢; omega)

theorem readFields_writeIndented {long : Prop} : ∀ (fields : List (Text × Json))
    (_ : PlainFields long fields) (_ : fields ≠ []) (depth fuel p k : Nat) (rest : Text)
    (_ : (join (',' :: lineBreak depth) (indentedFields depth fields)).length < fuel),
    Gives long fields rest (readFields fuel ⟨p,
      join (',' :: lineBreak depth) (indentedFields depth fields) ++
        (lineBreak k ++ '\x7d' :: rest)⟩)
  | [], _, nonempty, _, _, _, _, _, _ => absurd rfl nonempty
  | [(name, v)], h, _, depth, fuel, p, k, rest, enough => by
    cases fuel with
    | zero => simp at enough
    | succ fuel =>
      obtain ⟨c, t, first, opens⟩ := writeIndented_opening h.1 depth
      have alone : join (',' :: lineBreak depth) (indentedFields depth [(name, v)]) =
          writeText true name ++ (':' :: ' ' :: v.writeIndented depth) := by
        rw [indentedFields_cons]
        simp [indentedFields, join]
      have value := fun next => readValue_writeIndented v h.1 depth fuel next
        (lineBreak k ++ '\x7d' :: rest) (.lineBreak k _)
        (by simp only [alone, List.length_append, List.length_cons] at enough; omega)
      simp only [alone, first, List.append_assoc, List.cons_append] at value ⊢
      exact readFields_last opens value
  | (name, v) :: (name', v') :: fields, h, _, depth, fuel, p, k, rest, enough => by
    cases fuel with
    | zero => simp at enough
    | succ fuel =>
      obtain ⟨c, t, first, opens⟩ := writeIndented_opening h.1 depth
      obtain ⟨t', begins⟩ := indentedFields_opening depth name' v' fields (',' :: lineBreak depth)
      have later := readFields_writeIndented ((name', v') :: fields) h.2 (by simp) depth fuel
      have split : join (',' :: lineBreak depth)
          (indentedFields depth ((name, v) :: (name', v') :: fields)) =
          writeText true name ++ (':' :: ' ' :: v.writeIndented depth) ++
            (',' :: lineBreak depth ++ join (',' :: lineBreak depth)
              (indentedFields depth ((name', v') :: fields))) := by
        rw [indentedFields_cons, indentedFields_cons, join_cons_cons]
      simp only [split, begins, List.length_append, List.length_cons] at later enough ⊢
      have value := fun next => readValue_writeIndented v h.1 depth fuel next
        (',' :: (lineBreak depth ++ '\x22' :: (t' ++ (lineBreak k ++ '\x7d' :: rest))))
        (.comma _) (by omega)
      simp only [first, List.append_assoc, List.cons_append] at value later ⊢
      exact readFields_more opens value fun next => later next k _ (by omega)

end

/-- Indented JSON is read as what was written, unless an integer in it has too many digits. -/
theorem read_writeIndented {long : Prop} {j : Json} (h : Plain long j) :
    read (j.writeIndented 0) = .ok j ∨
      long ∧ read (j.writeIndented 0) = .error .tooManyDigits := by
  obtain ⟨c, t, begins, opens⟩ := writeIndented_opening h 0
  have noMark : Cursor.startsWith ⟨0, j.writeIndented 0⟩ ['\ufeff'] = false := by
    have other : '\ufeff' ≠ c := (opens.ne (by simp [Opening])).symm
    simp [Cursor.startsWith, begins, List.isPrefixOf, other]
  have start : Cursor.skipSpace ⟨0, j.writeIndented 0⟩ = ⟨0, j.writeIndented 0⟩ := by
    rw [begins]
    exact Cursor.skipSpace_sign opens.not_space
  have value := readValue_writeIndented j h 0 (2 * (j.writeIndented 0).length + 2) 0 []
    (by simp [Stops]) (by omega)
  rw [List.append_nil] at value
  simp only [read, noMark, start]
  rcases value with ⟨next, done⟩ | ⟨excuse, stop⟩
  · left
    rw [done]
    rfl
  · right
    rw [stop]
    exact ⟨excuse, rfl⟩

end ChatCommands.Json
