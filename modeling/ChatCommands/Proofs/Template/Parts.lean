import ChatCommands.Proofs.Template.Spans
import ChatCommands.Template.Instruction

/-!
The parts of a text between its semicolons.

A semicolon that is escaped or inside a pair of braces cuts nothing. So the parts of a closed text
are closed, and with the semicolons between them they are the text again.
-/

namespace ChatCommands

def depthAfter (depth : Int) (c : Char) : Int :=
  if c = '{' then depth + 1 else if c = '}' then depth - 1 else depth

section Equations

variable (depth : Int)

theorem cutParts_escaped (d : Char) (t : Text) :
    cutParts depth ('\\' :: d :: t) =
      ('\\' :: d :: (cutParts depth t).1, (cutParts depth t).2) := by
  simp [cutParts]

theorem cutParts_semicolon (t : Text) :
    cutParts 0 (';' :: t) = ([], (cutParts 0 t).1 :: (cutParts 0 t).2) := by
  cases t <;> simp [cutParts]

theorem cutParts_single {c : Char} (hc : c ≠ '\\') (inside : ¬ (c = ';' ∧ depth = 0)) (t : Text) :
    cutParts depth (c :: t) =
      (c :: (cutParts (depthAfter depth c) t).1, (cutParts (depthAfter depth c) t).2) := by
  cases t with
  | nil => simp [cutParts, inside]
  | cons d t => simp only [cutParts, if_neg hc, if_neg inside, depthAfter]

end Equations

/-- A text without a sign of its own is cut nowhere. -/
theorem cutParts_plain {s : Text} (plain : ∀ c ∈ s, c ≠ '\\' ∧ c ≠ '{' ∧ c ≠ '}')
    (uncut : ';' ∉ s) (t : Text) :
    cutParts 0 (s ++ t) = (s ++ (cutParts 0 t).1, (cutParts 0 t).2) := by
  induction s with
  | nil => rfl
  | cons c s ih =>
    obtain ⟨⟨escape, opening, closing⟩, others⟩ := List.forall_mem_cons.mp plain
    rw [List.mem_cons, not_or] at uncut
    obtain ⟨apart, rest⟩ := uncut
    have level : depthAfter 0 c = 0 := by simp [depthAfter, opening, closing]
    rw [List.cons_append, cutParts_single 0 escape (by simp [Ne.symm apart]), level,
      ih others rest]
    rfl

/-- Without a sign of its own a text is one part. -/
theorem cutParts_whole {t : Text} (plain : ∀ c ∈ t, c ≠ '\\' ∧ c ≠ '{' ∧ c ≠ '}')
    (uncut : ';' ∉ t) : cutParts 0 t = (t, []) := by
  have all := cutParts_plain plain uncut []
  simpa [cutParts] using all

theorem Closed.cutParts_inside {s : Text} (h : Closed s) {depth : Int} (positive : 0 < depth)
    (t : Text) :
    cutParts depth (s ++ t) = (s ++ (cutParts depth t).1, (cutParts depth t).2) := by
  induction h generalizing depth t with
  | nil => rfl
  | @plain c s hc ho hx _ ih =>
    have same : depthAfter depth c = depth := by simp [depthAfter, ho, hx]
    rw [List.cons_append, cutParts_single depth hc (by omega), same, ih positive]
    rfl
  | @escaped d s _ ih =>
    rw [List.cons_append, List.cons_append, cutParts_escaped, ih positive]
    rfl
  | @braced inner s _ _ ih_inner ih =>
    have opened : depthAfter depth '{' = depth + 1 := by simp [depthAfter]
    have closed : depthAfter (depth + 1) '}' = depth := by simp [depthAfter]
    have assoc : '{' :: (inner ++ '}' :: s) ++ t = '{' :: (inner ++ '}' :: (s ++ t)) := by simp
    rw [assoc, cutParts_single depth (by decide) (by simp), opened, ih_inner (by omega),
      cutParts_single _ (by decide) (by simp), closed, ih positive]
    simp

theorem Closed.cutParts_span {inner : Text} (h : Closed inner) (t : Text) :
    cutParts 0 (Text.braced inner ++ t) =
      (Text.braced inner ++ (cutParts 0 t).1, (cutParts 0 t).2) := by
  have opened : depthAfter 0 '{' = 1 := rfl
  have closed : depthAfter 1 '}' = 0 := rfl
  have assoc : Text.braced inner ++ t = '{' :: (inner ++ '}' :: t) := by simp [Text.braced]
  rw [assoc, cutParts_single 0 (by decide) (by simp), opened, h.cutParts_inside (by decide),
    cutParts_single _ (by decide) (by simp), closed]
  simp [Text.braced]

theorem Closed.cutParts {t : Text} (h : Closed t) :
    Closed (cutParts 0 t).1 ∧ ∀ p ∈ (ChatCommands.cutParts 0 t).2, Closed p := by
  induction h with
  | nil => exact ⟨.nil, by simp [ChatCommands.cutParts]⟩
  | @plain c t hc ho hx _ ih =>
    by_cases cut : c = ';'
    · subst cut
      rw [cutParts_semicolon]
      exact ⟨.nil, List.forall_mem_cons.mpr ih⟩
    · have same : depthAfter 0 c = 0 := by simp [depthAfter, ho, hx]
      rw [cutParts_single 0 hc (by simp [cut]), same]
      exact ⟨.plain hc ho hx ih.1, ih.2⟩
  | escaped _ ih =>
    rw [cutParts_escaped]
    exact ⟨.escaped ih.1, ih.2⟩
  | @braced inner t hi ht _ ih =>
    have assoc : '{' :: (inner ++ '}' :: t) = Text.braced inner ++ t := by simp [Text.braced]
    rw [assoc, hi.cutParts_span]
    exact ⟨hi.span.append ih.1, ih.2⟩

theorem join_cons (p q : Text) (rest : List Text) :
    Text.join [';'] (p :: q :: rest) = p ++ ';' :: Text.join [';'] (q :: rest) :=
  Text.join_cons_cons [';'] p q rest

theorem join_append_first (s p : Text) (rest : List Text) :
    Text.join [';'] ((s ++ p) :: rest) = s ++ Text.join [';'] (p :: rest) := by
  cases rest with
  | nil => simp [Text.join, List.intercalate]
  | cons q rest => rw [join_cons, join_cons, List.append_assoc]

/-- The parts with semicolons between them are the text. -/
theorem join_cutParts (depth : Int) (t : Text) :
    Text.join [';'] ((cutParts depth t).1 :: (cutParts depth t).2) = t := by
  induction t using Text.glyph_induction generalizing depth with
  | nil => rfl
  | lone => simp [cutParts, Text.join, List.intercalate]
  | escaped d t ih =>
    rw [cutParts_escaped]
    exact (join_append_first ['\\', d] _ _).trans (congrArg _ (ih depth))
  | single c t hc ih =>
    by_cases cut : c = ';' ∧ depth = 0
    · obtain ⟨rfl, rfl⟩ := cut
      rw [cutParts_semicolon, join_cons, ih]
      rfl
    · rw [cutParts_single depth hc cut]
      exact (join_append_first [c] _ _).trans (congrArg _ (ih _))

theorem closed_join {ts : List Text} (closed : ∀ t ∈ ts, Closed t) :
    Closed (Text.join [';'] ts) := by
  induction ts with
  | nil => exact .nil
  | cons t ts ih =>
    obtain ⟨ht, hts⟩ := List.forall_mem_cons.mp closed
    cases ts with
    | nil => simpa [Text.join, List.intercalate] using ht
    | cons q ts =>
      rw [join_cons]
      exact ht.append (.plain (by decide) (by decide) (by decide) (ih hts))

theorem join_regroup (ss : List Text) {ts : List Text} (nonempty : ts ≠ []) :
    Text.join [';'] (ss ++ [Text.join [';'] ts]) = Text.join [';'] (ss ++ ts) := by
  obtain ⟨t, ts, rfl⟩ := List.exists_cons_of_ne_nil nonempty
  induction ss with
  | nil => simp [Text.join, List.intercalate]
  | cons s ss ih =>
    cases ss with
    | nil => simp [Text.join, List.intercalate]
    | cons q ss =>
      rw [List.cons_append, List.cons_append, join_cons, ← List.cons_append, ih, List.cons_append,
        List.cons_append, List.cons_append, join_cons]

namespace Instruction

@[simp] theorem inner_braced (t : Text) : inner (Text.braced t) = t := by
  simp [inner, Text.braced]

theorem decode_braced (t : Text) :
    decode (Text.braced t) =
      ⟨Text.strip (cutParts 0 t).1, (cutParts 0 t).2, Text.braced t⟩ := by
  simp [decode]

end Instruction

end ChatCommands
