import ChatCommands.Instant.Read
import ChatCommands.Proofs.Text.Decimal
import Mathlib.Data.List.TakeWhile

/-!
Instants written and read back.

Every part is written with a fixed number of digits, so the reader takes each part whole and meets
the sign that stands after it. The one thing that does not come back is a distance from universal
time of less than a second, which reads as none at all; but no such distance is ever read.
-/

namespace ChatCommands.Instant

open Text

/-! ### Digits -/

theorem readDigits_padded (width : Nat) {n : Nat} (fits : n < 10 ^ (width + 1)) (rest : Text) :
    readDigits (width + 1) (padded (width + 1) n ++ rest) = some (n, rest) := by
  have length := length_padded fits
  have digits : (padded (width + 1) n).all Char.isDigit = true :=
    List.all_eq_true.mpr fun c h => isDigit_of_mem_padded h
  have value := ofDigitChars_padded (width + 1) n
  have taken : (padded (width + 1) n ++ rest).take (width + 1) = padded (width + 1) n := by
    rw [List.take_append_of_le_length (by omega), List.take_of_length_le (by omega)]
  have left : (padded (width + 1) n ++ rest).drop (width + 1) = rest := by
    rw [List.drop_append_of_le_length (by omega), List.drop_of_length_le (by omega),
      List.nil_append]
  simp only [readDigits, taken, left, length, digits, and_self, if_true]
  exact congrArg (fun v => some (v, rest)) value

theorem padded_two {n : Nat} (fits : n < 100) :
    ∃ a b, padded 2 n = [a, b] ∧ a.isDigit = true ∧ b.isDigit = true := by
  have length : (padded 2 n).length = 2 := length_padded fits
  have digits : ∀ c ∈ padded 2 n, c.isDigit = true := fun c h => isDigit_of_mem_padded h
  match same : padded 2 n with
  | [a, b] => exact ⟨a, b, rfl, digits a (by simp [same]), digits b (by simp [same])⟩
  | [] | [_] | _ :: _ :: _ :: _ => simp [same] at length

/-! ### Times -/

/-- The fraction of a second in a text, where there is one. -/
def fractionText (micro : Nat) : Text :=
  if micro = 0 then [] else '.' :: padded 6 micro

theorem readFraction_padded {micro : Nat} (fits : micro < 1000000) :
    readFraction (padded 6 micro) = some (micro, []) := by
  have length : (padded 6 micro).length = 6 := length_padded fits
  have digits := readDigits_padded 5 fits []
  rw [List.append_nil] at digits
  simp [readFraction, length, digits]

section Parts

variable {colons : Bool} {fuel n : Nat} {known : List Nat} {t more : Text}

theorem readParts_next (digits : readDigits 2 t = some (n, ':' :: more)) (others : more ≠ [])
    (mark : known = [] ∨ colons = true) :
    readParts colons (fuel + 1) known t = readParts true fuel (known ++ [n]) more := by
  rcases mark with rfl | rfl
  · simp [readParts, digits, others]
  · simp [readParts, digits, others]

theorem readParts_end (digits : readDigits 2 t = some (n, [])) :
    readParts colons (fuel + 1) known t = some (known ++ [n], 0, []) := by
  simp [readParts, digits]

theorem readParts_fraction {micro : Nat} (fits : micro < 1000000)
    (digits : readDigits 2 t = some (n, '.' :: padded 6 micro)) :
    readParts colons (fuel + 1) known t = some (known ++ [n], micro, []) := by
  have length : (padded 6 micro).length = 6 := length_padded fits
  have some : padded 6 micro ≠ [] := by
    intro none
    simp [none] at length
  simp [readParts, digits, some, readFraction_padded fits]

end Parts

theorem readClock_minutes {hour minute : Nat} (hh : hour < 100) (hm : minute < 100) :
    readClock (padded 2 hour ++ ':' :: padded 2 minute) = some (⟨hour, minute, 0, 0⟩, []) := by
  obtain ⟨a, b, same, -⟩ := padded_two hm
  have last := readDigits_padded 1 hm []
  rw [List.append_nil] at last
  rw [readClock, readParts_next (readDigits_padded 1 hh _) (by simp [same]) (.inl rfl),
    readParts_end last]
  rfl

theorem readClock_seconds {hour minute second micro : Nat} (hh : hour < 100) (hm : minute < 100)
    (hs : second < 100) (fits : micro < 1000000) :
    readClock (padded 2 hour ++ ':' :: (padded 2 minute ++ ':' :: (padded 2 second ++
      fractionText micro))) = some (⟨hour, minute, second, micro⟩, []) := by
  obtain ⟨a, b, same, -⟩ := padded_two hm
  obtain ⟨c, d, same', -⟩ := padded_two hs
  have last := readDigits_padded 1 hs (fractionText micro)
  have seconds : readParts true 1 [hour, minute] (padded 2 second ++ fractionText micro) =
      some ([hour, minute, second], micro, []) := by
    by_cases whole : micro = 0
    · subst whole
      exact readParts_end last
    · rw [fractionText, if_neg whole] at last ⊢
      exact readParts_fraction fits last
  rw [readClock, readParts_next (readDigits_padded 1 hh _) (by simp [same]) (.inl rfl),
    readParts_next (readDigits_padded 1 hm _) (by simp [same']) (.inr rfl)]
  simp only [List.nil_append, List.cons_append] at seconds ⊢
  rw [seconds]
  rfl

/-! ### The distance from universal time -/

/-- A distance that is none, or of a second at least, to either side. -/
def Whole (micros : Int) : Prop :=
  micros = 0 ∨ 1000000 ≤ micros.natAbs

theorem readClock_clockText {micros : Nat} (day : micros < 86400000000) :
    readClock (clockText micros) = some (⟨micros / 1000000 / 3600, micros / 1000000 / 60 % 60,
      micros / 1000000 % 60, micros % 1000000⟩, []) := by
  have hour : micros / 1000000 / 3600 < 100 := by omega
  have minute : micros / 1000000 / 60 % 60 < 100 := by omega
  have second : micros / 1000000 % 60 < 100 := by omega
  have fraction : micros % 1000000 < 1000000 := by omega
  by_cases short : micros / 1000000 % 60 = 0 ∧ micros % 1000000 = 0
  · have text : clockText micros = padded 2 (micros / 1000000 / 3600) ++
        ':' :: padded 2 (micros / 1000000 / 60 % 60) := by
      simp [clockText, short]
    rw [text, readClock_minutes hour minute, short.1, short.2]
  · have text : clockText micros = padded 2 (micros / 1000000 / 3600) ++
        ':' :: (padded 2 (micros / 1000000 / 60 % 60) ++ ':' ::
          (padded 2 (micros / 1000000 % 60) ++ fractionText (micros % 1000000))) := by
      simp only [clockText, if_neg short, List.append_assoc, List.cons_append, fractionText]
    rw [text, readClock_seconds hour minute second fraction]

theorem readOffset_offsetText {micros : Int} (whole : Whole micros)
    (day : micros.natAbs < 86400000000) :
    readOffset (if micros < 0 then '-' else '+') (clockText micros.natAbs) = some micros := by
  have noZone : (if micros < 0 then '-' else '+') ≠ 'Z' := by split <;> decide
  have total : Clock.totalSeconds ⟨micros.natAbs / 1000000 / 3600,
      micros.natAbs / 1000000 / 60 % 60, micros.natAbs / 1000000 % 60,
      micros.natAbs % 1000000⟩ = micros.natAbs / 1000000 := by
    simp only [Clock.totalSeconds]
    omega
  rw [readOffset, if_neg noZone, readClock_clockText day]
  simp only [Option.bind_eq_bind, Option.bind_some, List.isEmpty_nil, Bool.not_true,
    Bool.false_eq_true, if_false, total]
  rcases whole with rfl | large
  · rfl
  -- The reader takes a clock without whole seconds for no distance at all.
  · rw [if_neg (by omega)]
    by_cases negative : micros < 0
    · simp only [negative, if_true, Option.some.injEq]
      omega
    · simp only [negative, if_false, Option.some.injEq, Char.reduceEq]
      omega

/-- Every distance that is read is none, or of a second at least. -/
theorem readOffset_whole {sign : Char} {t : Text} {micros : Int}
    (h : readOffset sign t = some micros) : Whole micros := by
  unfold readOffset at h
  split at h
  · split at h
    · cases h
      exact .inl rfl
    · cases h
  · simp only [Option.bind_eq_bind, Option.bind_eq_some_iff] at h
    obtain ⟨⟨clock, rest⟩, -, h⟩ := h
    dsimp only at h
    split at h
    · cases h
    split at h
    · cases h
      exact .inl rfl
    · rename_i some
      right
      split at h
      · cases h
        omega
      · cases h
        omega

/-! ### The whole text -/

theorem readTime_text {clock : Text} {c : Clock} (plain : ∀ d ∈ clock, isOffsetSign d = false)
    (time : readClock clock = some (c, [])) {offset : Option Int}
    (distance : ∀ micros ∈ offset, Whole micros ∧ micros.natAbs < 86400000000) :
    readTime (clock ++ (offset.map offsetText).getD []) = some (c, offset) := by
  have kept : ∀ d ∈ clock, (!isOffsetSign d) = true := fun d hd => by simp [plain d hd]
  cases offset with
  | none =>
    have body : clock.takeWhile (fun d => !isOffsetSign d) = clock :=
      List.takeWhile_eq_self_iff.mpr kept
    simp [readTime, body, time]
  | some micros =>
    obtain ⟨whole, day⟩ := distance micros rfl
    have marked : isOffsetSign (if micros < 0 then '-' else '+') = true := by split <;> rfl
    have body : (clock ++ offsetText micros).takeWhile (fun d => !isOffsetSign d) = clock := by
      rw [List.takeWhile_append_of_pos kept, offsetText,
        List.takeWhile_cons_of_neg (by simp [marked]), List.append_nil]
    have left : (clock ++ offsetText micros).drop clock.length = offsetText micros := List.drop_left
    simp only [readTime, Option.map_some, Option.getD_some, body, time, left, Option.bind_eq_bind,
      Option.bind_some]
    simp [offsetText, readOffset_offsetText whole day]

/-- The date of an instant in a text. -/
def dateText (i : Instant) : Text :=
  padded 4 i.year ++ '-' :: (padded 2 i.month ++ '-' :: padded 2 i.day)

theorem length_dateText {i : Instant} (hy : i.year < 10000) (hm : i.month < 100)
    (hd : i.day < 100) : i.dateText.length = 10 := by
  have year : (padded 4 i.year).length = 4 := length_padded hy
  have month : (padded 2 i.month).length = 2 := length_padded hm
  have day : (padded 2 i.day).length = 2 := length_padded hd
  simp [dateText, year, month, day]

theorem readDate_dateText {i : Instant} (hy : i.year < 10000) (hm : i.month < 100)
    (hd : i.day < 100) : readDate i.dateText = some (i.year, i.month, i.day) := by
  obtain ⟨a, b, same, digit, -⟩ := padded_two hm
  have notWeek : a ≠ 'W' := by
    rintro rfl
    cases digit
  have month : readDigits 2 (a :: b :: '-' :: padded 2 i.day) =
      some (i.month, '-' :: padded 2 i.day) := by
    have read := readDigits_padded 1 hm ('-' :: padded 2 i.day)
    rwa [same] at read
  have day : readDigits 2 (padded 2 i.day) = some (i.day, []) := by
    have read := readDigits_padded 1 hd []
    rwa [List.append_nil] at read
  simp [readDate, dateText, readDigits_padded 3 hy, same, notWeek, month, readDash, day]

theorem dateLength_dateText {i : Instant} (hy : i.year < 10000) (hm : i.month < 100)
    (hd : i.day < 100) (rest : Text) : dateLength? (i.dateText ++ 'T' :: rest) = some 10 := by
  have length := length_dateText hy hm hd
  have year : (padded 4 i.year).length = 4 := length_padded hy
  obtain ⟨a, b, same, digit, -⟩ := padded_two hm
  have notWeek : a ≠ 'W' := by
    rintro rfl
    cases digit
  have dash : (i.dateText ++ 'T' :: rest)[4]? = some '-' := by
    simp [dateText, year]
  have month : (i.dateText ++ 'T' :: rest)[5]? = some a := by
    simp only [dateText, same, List.append_assoc, List.cons_append]
    rw [List.getElem?_append_right (by omega), year]
    rfl
  have long : (i.dateText ++ 'T' :: rest).length = 11 + rest.length := by
    simp [length]
    omega
  rw [dateLength?, if_neg (by omega), if_neg (by omega), if_pos dash, month,
    if_neg (by simpa using notWeek)]

/-- What a time that has been read satisfies: its parts are in their ranges, and its distance from
universal time is none or of a second at least. -/
structure Legible (i : Instant) : Prop where
  valid : i.isValid = true
  distance : ∀ micros ∈ i.offset, Whole micros

theorem readTime_whole {t : Text} {c : Clock} {offset : Option Int}
    (h : readTime t = some (c, offset)) : ∀ micros ∈ offset, Whole micros := by
  simp only [readTime, Option.bind_eq_bind, Option.bind_eq_some_iff] at h
  obtain ⟨⟨clock, rest⟩, -, h⟩ := h
  dsimp only at h
  split at h
  · split at h
    · cases h
      exact fun _ none => nomatch none
    · cases h
  · obtain ⟨distance, read, same⟩ := Option.bind_eq_some_iff.mp h
    cases same
    rintro _ ⟨⟩
    exact readOffset_whole read

/-- Every time that is read is legible. -/
theorem read_legible {t : Text} {i : Instant} (h : read t = some i) : i.Legible := by
  simp only [read, Option.bind_eq_bind, Option.bind_eq_some_iff] at h
  obtain ⟨length, -, ⟨year, month, day⟩, -, ⟨clock, offset⟩, time, h⟩ := h
  dsimp only at h
  split at h
  · rename_i valid
    cases h
    refine ⟨valid, ?_⟩
    unfold readAfterDate at time
    split at time
    · cases time
      exact fun _ none => absurd none (Option.not_mem_none _)
    · exact readTime_whole time
  · cases h

/-- The time of day of an instant in a text. -/
def timeText (i : Instant) : Text :=
  padded 2 i.hour ++ ':' :: (padded 2 i.minute ++ ':' :: (padded 2 i.second ++
    fractionText i.micro))

theorem text_eq (i : Instant) :
    i.text = i.dateText ++ 'T' :: (i.timeText ++ (i.offset.map offsetText).getD []) := by
  simp only [text, dateText, timeText, fractionText, List.append_assoc, List.cons_append]

theorem timeText_plain (i : Instant) : ∀ d ∈ i.timeText, isOffsetSign d = false := by
  have digits {width n : Nat} : ∀ d ∈ padded width n, isOffsetSign d = false := by
    intro d hd
    have digit := isDigit_of_mem_padded hd
    have other (e : Char) (sign : e.isDigit = false) : (d == e) = false := by
      rw [beq_eq_false_iff_ne]
      rintro rfl
      simp [digit] at sign
    simp [isOffsetSign, other]
  have fraction : ∀ d ∈ fractionText i.micro, isOffsetSign d = false := by
    unfold fractionText
    split
    · exact fun _ none => nomatch none
    · exact List.forall_mem_cons.mpr ⟨rfl, digits⟩
  intro d hd
  simp only [timeText, List.mem_append, List.mem_cons] at hd
  rcases hd with hd | rfl | hd | rfl | hd | hd
  · exact digits d hd
  · rfl
  · exact digits d hd
  · rfl
  · exact digits d hd
  · exact fraction d hd

/-- A legible time is read back from its text. -/
theorem read_text {i : Instant} (h : i.Legible) : read i.text = some i := by
  have valid := h.valid
  simp only [isValid, Bool.and_eq_true, decide_eq_true_eq] at valid
  obtain ⟨⟨⟨⟨⟨⟨⟨⟨⟨⟨_, year⟩, _⟩, month⟩, _⟩, day⟩, hour⟩, minute⟩, second⟩, micro⟩, distance⟩ :=
    valid
  have day' : i.day < 100 := by
    have : daysInMonth i.year i.month ≤ 31 := by
      unfold daysInMonth
      split
      · split <;> omega
      · split <;> omega
    omega
  have length := length_dateText (i := i) (by omega) (by omega) day'
  have clock : readClock i.timeText = some (⟨i.hour, i.minute, i.second, i.micro⟩, []) :=
    readClock_seconds (by omega) (by omega) (by omega) micro
  have time : readTime (i.timeText ++ (i.offset.map offsetText).getD []) =
      some (⟨i.hour, i.minute, i.second, i.micro⟩, i.offset) := by
    refine readTime_text (timeText_plain i) clock fun micros some => ⟨h.distance micros some, ?_⟩
    rw [Option.mem_def.mp some] at distance
    simpa using distance
  have taken : i.text.take 10 = i.dateText := by
    rw [text_eq, ← length, List.take_left]
  have left : i.text.drop 10 = 'T' :: (i.timeText ++ (i.offset.map offsetText).getD []) := by
    rw [text_eq, ← length, List.drop_left]
  have whole : dateLength? i.text = some 10 := by
    rw [text_eq]
    exact dateLength_dateText (by omega) (by omega) day' _
  simp only [read, whole, taken, left, readDate_dateText (i := i) (by omega) (by omega) day',
    readAfterDate, time, Option.bind_eq_bind, Option.bind_some]
  exact if_pos h.valid

end ChatCommands.Instant
