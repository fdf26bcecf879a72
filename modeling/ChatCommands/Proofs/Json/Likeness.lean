import ChatCommands.Proofs.Json.RoundTrip

/-!
The two texts of a JSON value: what it is written as, and its literal.

The one is JSON, the other names `None`, `True` and `False` and has a mark of its own around
texts. Both are put together from the same parts in the same order. Where a part is not the same
in both, the texts differ before either ends, so what follows cannot make up for it: they are the
same exactly when all their parts are.
-/

namespace ChatCommands

namespace Text

/-- Two texts that differ in a character before either ends. -/
def Forks (s t : Text) : Prop :=
  ∃ (start s' t' : Text) (c d : Char), c ≠ d ∧ s = start ++ c :: s' ∧ t = start ++ d :: t'

/-- Two texts that are the same if `p` holds, and fork if it does not. -/
def Decided (p : Prop) (s t : Text) : Prop :=
  p ∧ s = t ∨ ¬ p ∧ Forks s t

section Forks

variable {s t s' t' : Text} {p q : Prop}

theorem Forks.of_head {c d : Char} (different : c ≠ d) : Forks (c :: s) (d :: t) :=
  ⟨[], s, t, c, d, different, rfl, rfl⟩

theorem Forks.prepend (h : Forks s t) (u : Text) : Forks (u ++ s) (u ++ t) := by
  obtain ⟨start, s', t', c, d, different, rfl, rfl⟩ := h
  exact ⟨u ++ start, s', t', c, d, different, by simp, by simp⟩

theorem Forks.append (h : Forks s t) (u v : Text) : Forks (s ++ u) (t ++ v) := by
  obtain ⟨start, s', t', c, d, different, rfl, rfl⟩ := h
  exact ⟨start, s' ++ u, t' ++ v, c, d, different, by simp, by simp⟩

theorem Forks.ne (h : Forks s t) : s ≠ t := by
  obtain ⟨start, s', t', c, d, different, rfl, rfl⟩ := h
  intro same
  exact different (List.cons.inj (List.append_cancel_left same)).1

namespace Decided

theorem same (s : Text) : Decided True s s :=
  .inl ⟨trivial, rfl⟩

theorem of_forks (h : Forks s t) : Decided False s t :=
  .inr ⟨not_false, h⟩

theorem congr (h : Decided p s t) (iff : p ↔ q) : Decided q s t := by
  rwa [Decided, ← iff]

theorem eq_iff (h : Decided p s t) : s = t ↔ p := by
  rcases h with ⟨holds, same⟩ | ⟨fails, forks⟩
  · exact iff_of_true same holds
  · exact iff_of_false forks.ne fails

theorem append (first : Decided p s t) (second : Decided q s' t') :
    Decided (p ∧ q) (s ++ s') (t ++ t') := by
  rcases first with ⟨holds, rfl⟩ | ⟨fails, forks⟩
  · rcases second with ⟨holds', rfl⟩ | ⟨fails, forks⟩
    · exact .inl ⟨⟨holds, holds'⟩, rfl⟩
    · exact .inr ⟨fun both => fails both.2, forks.prepend s⟩
  · exact .inr ⟨fun both => fails both.1, forks.append s' t'⟩

/-- Between two texts that are on both sides. -/
theorem between (h : Decided p s t) (u v : Text) : Decided p (u ++ s ++ v) (u ++ t ++ v) :=
  (((same u).append h).append (same v)).congr (by simp)

theorem flatMap {each : Char → Prop} {f g : Char → Text} {t : Text}
    (h : ∀ c ∈ t, Decided (each c) (f c) (g c)) :
    Decided (∀ c ∈ t, each c) (t.flatMap f) (t.flatMap g) := by
  induction t with
  | nil => exact (same []).congr (by simp)
  | cons c t ih =>
    obtain ⟨here, later⟩ := List.forall_mem_cons.mp h
    rw [List.flatMap_cons, List.flatMap_cons]
    exact (here.append (ih later)).congr List.forall_mem_cons.symm

end Decided

end Forks

/-! ### Texts in quotation marks -/

/-- Whether a character is the same in JSON as between quotation marks of a literal. -/
def AlikeChar (c : Char) : Prop :=
  isPrintable c = true ∨ c = '\n' ∨ c = '\r' ∨ c = '\t'

/-- Whether a text is the same in JSON as its literal, which needs the double marks of JSON. -/
def Alike (t : Text) : Prop :=
  quoteMark t = '\x22' ∧ ∀ c ∈ t, AlikeChar c

theorem isPrintable_control {c : Char} (control : c.toNat < 0x20) : isPrintable c = false := by
  rw [isPrintable, Bool.not_eq_false', inRanges_iff]
  exact ⟨(0x0, 0x1f), List.mem_cons_self, Nat.zero_le _, Nat.le_of_lt_succ control⟩

/-- A character without a visible form is an escape in a literal, and not one that JSON knows. -/
theorem quoteChar_hidden {mark c : Char} (special : ¬ (c = mark ∨ c = '\\')) (line : c ≠ '\n')
    (carriage : c ≠ '\r') (tab : c ≠ '\t') (hidden : isPrintable c = false) :
    ∃ e rest, quoteChar mark c = '\\' :: e :: rest ∧ (c.toNat < 0x100 → e = 'x') := by
  rw [quoteChar, if_neg special, if_neg line, if_neg carriage, if_neg tab, hidden,
    if_neg Bool.false_ne_true]
  split
  · exact ⟨'x', _, rfl, fun _ => rfl⟩
  · rename_i large
    split
    · exact ⟨'u', _, rfl, fun small => absurd small large⟩
    · exact ⟨'U', _, rfl, fun small => absurd small large⟩

/-- The escape that JSON has for such a character, if it has one. -/
theorem escapeChar_hidden {c : Char} (special : ¬ (c = '\x22' ∨ c = '\\')) (line : c ≠ '\n')
    (carriage : c ≠ '\r') (tab : c ≠ '\t') :
    Json.escapeChar false c = [c] ∨
      ∃ e rest, Json.escapeChar false c = '\\' :: e :: rest ∧ e ≠ 'x' ∧ c.toNat < 0x20 := by
  rw [Json.escapeChar, if_neg special, if_neg line, if_neg carriage, if_neg tab]
  split
  · subst c
    exact .inr ⟨'b', [], rfl, by decide, by decide⟩
  split
  · subst c
    exact .inr ⟨'f', [], rfl, by decide, by decide⟩
  split
  · rename_i control
    replace control : c.toNat < 0x20 :=
      control.resolve_right fun ascii => Bool.false_ne_true ascii.1
    rw [Json.escapeCode, if_pos (by omega)]
    exact .inr ⟨'u', _, rfl, by decide, control⟩
  · exact .inl rfl

theorem decided_char {c : Char} (inside : c ≠ '\x22') :
    Decided (AlikeChar c) (Json.escapeChar false c) (quoteChar '\x22' c) := by
  by_cases slash : c = '\\'
  · subst c
    exact .inl ⟨.inl (by decide +kernel), by simp [Json.escapeChar, quoteChar]⟩
  by_cases line : c = '\n'
  · subst c
    exact .inl ⟨.inr (.inl rfl), rfl⟩
  by_cases carriage : c = '\r'
  · subst c
    exact .inl ⟨.inr (.inr (.inl rfl)), rfl⟩
  by_cases tab : c = '\t'
  · subst c
    exact .inl ⟨.inr (.inr (.inr rfl)), rfl⟩
  have special : ¬ (c = '\x22' ∨ c = '\\') := not_or.mpr ⟨inside, slash⟩
  cases printable : isPrintable c with
  | true =>
    have shown : quoteChar '\x22' c = [c] := by
      rw [quoteChar, if_neg special, if_neg line, if_neg carriage, if_neg tab, printable,
        if_pos rfl]
    rcases escapeChar_hidden special line carriage tab with plain | ⟨e, rest, _, _, control⟩
    · exact .inl ⟨.inl printable, plain.trans shown.symm⟩
    · cases (isPrintable_control control).symm.trans printable
  | false =>
    have unlike : ¬ AlikeChar c := by simp [AlikeChar, printable, line, carriage, tab]
    obtain ⟨e, rest, hidden, mark⟩ := quoteChar_hidden special line carriage tab printable
    refine .inr ⟨unlike, ?_⟩
    rw [hidden]
    rcases escapeChar_hidden special line carriage tab with
      plain | ⟨d, more, escape, other, control⟩
    · rw [plain]
      exact Forks.of_head slash
    · rw [escape, mark (by omega)]
      exact (Forks.of_head other).prepend ['\\']

theorem decided_quoted (t : Text) : Decided t.Alike (Json.writeText false t) (quoted t) := by
  by_cases double : quoteMark t = '\x22'
  · have inside : ∀ c ∈ t, c ≠ '\x22' := by
      rintro c member rfl
      rw [quoteMark, if_neg fun marks => marks.2 member] at double
      cases double
    have body := (Decided.flatMap fun c member => decided_char (inside c member)).between
      ['\x22'] ['\x22']
    rw [quoted, double]
    exact body.congr (by rw [Alike, double, eq_self_iff_true, true_and])
  · have single : quoteMark t = '\x27' := by
      rw [quoteMark, ite_eq_left_iff, Classical.not_imp] at double
      rw [quoteMark, if_neg double.1]
    rw [quoted, single]
    exact (Decided.of_forks (Forks.of_head (by decide))).congr
      (by simp [Alike, single])

end Text

namespace Scalar

/-- Whether a scalar is the same in JSON as its literal. -/
def Alike : Scalar → Prop
  | .null | .bool _ | .float .nan | .float (.infinite _) => False
  | .int _ | .float (.finite ..) => True
  | .text t => t.Alike

theorem decided (s : Scalar) : Text.Decided s.Alike (Json.writeScalar false s) s.literal := by
  cases s with
  | null => exact .of_forks (.of_head (by decide))
  | bool b => cases b <;> exact .of_forks (.of_head (by decide))
  | int n => exact .same _
  | float x =>
    cases x with
    | nan => exact .of_forks (.of_head (by decide))
    | infinite negative =>
      cases negative with
      | false => exact .of_forks (.of_head (by decide))
      | true => exact .of_forks (.prepend (.of_head (by decide)) ['-'])
    | finite negative mantissa exponent => exact .same _
  | text t => exact Text.decided_quoted t

end Scalar

namespace Json

open Text

mutual
/-- Whether a value in a container is the same in JSON as its literal. -/
def Alike : Json → Prop
  | .scalar s => s.Alike
  | .array items => AlikeItems items
  | .object fields => AlikeFields fields
def AlikeItems : List Json → Prop
  | [] => True
  | x :: rest => Alike x ∧ AlikeItems rest
def AlikeFields : List (Text × Json) → Prop
  | [] => True
  | (k, v) :: rest => (k.Alike ∧ Alike v) ∧ AlikeFields rest
end

theorem decided_field {k : Text} {v : Json} (value : Decided v.Alike (v.write false) v.literal) :
    Decided (k.Alike ∧ v.Alike) (writeText false k ++ ": ".toList ++ v.write false)
      (Text.quoted k ++ ": ".toList ++ v.literal) :=
  (((decided_quoted k).append (.same _)).append value).congr (by simp)

-- A comma stands between two parts on both sides, so lists go by whether another part follows.
mutual
theorem decided : ∀ j : Json, Decided j.Alike (j.write false) j.literal
  | .scalar s => s.decided
  | .array items => (decided_items items).between ['['] [']']
  | .object fields => (decided_fields fields).between ['{'] ['}']

theorem decided_items : ∀ items : List Json, Decided (AlikeItems items)
    (join ", ".toList (writeItems false items)) (join ", ".toList (literalItems items))
  | [] => .same _
  | [x] => by
    simpa [AlikeItems, writeItems, literalItems, join] using decided x
  | x :: y :: rest =>
    (decided x).append (((Decided.same _).append (decided_items (y :: rest))).congr (by simp))

theorem decided_fields : ∀ fields : List (Text × Json), Decided (AlikeFields fields)
    (join ", ".toList (writeFields false fields)) (join ", ".toList (literalFields fields))
  | [] => .same _
  | [(k, v)] => by
    simpa [AlikeFields, writeFields, literalFields, join] using decided_field (decided v)
  | (k, v) :: (l, w) :: rest =>
    (decided_field (decided v)).append
      (((Decided.same _).append (decided_fields ((l, w) :: rest))).congr (by simp))
end

end Json

end ChatCommands
