import ChatCommands.Expr.Parser
import ChatCommands.Proofs.Expr.Digits

/-!
What the parser of expressions guarantees.

The literals of an expression are JSON, and reading crashes for one reason only: a number among
the tokens has too many digits.
-/

namespace ChatCommands

theorem error_of_mapM {α β ε : Type} {f : α → Except ε β} {xs : List α} {e : ε}
    (h : xs.mapM f = .error e) : ∃ x ∈ xs, f x = .error e := by
  induction xs with
  | nil => cases h
  | cons x xs ih =>
    rw [List.mapM_cons] at h
    cases hx : f x with
    | error first =>
      rw [hx] at h
      cases h
      exact ⟨x, List.mem_cons_self, hx⟩
    | ok y =>
      cases rest : xs.mapM f with
      | ok ys =>
        rw [hx, rest] at h
        cases h
      | error other =>
        rw [hx, rest] at h
        cases h
        obtain ⟨x', member, hx'⟩ := ih rest
        exact ⟨x', List.mem_cons_of_mem _ member, hx'⟩

mutual
/-- Whether all literals of an expression, and all keys and arguments in it, are as required. -/
def Expr.Throughout (literal : Value → Prop) (operand : Expr → Prop) : Expr → Prop
  | .literal v => literal v
  | .path _ steps _ => Step.AllThroughout literal operand steps
  | .not e => e.Throughout literal operand
  | .all es => Expr.AllThroughout literal operand es
  | .any es => Expr.AllThroughout literal operand es
  | .compare _ left right => left.Throughout literal operand ∧ right.Throughout literal operand
def Expr.AllThroughout (literal : Value → Prop) (operand : Expr → Prop) : List Expr → Prop
  | [] => True
  | e :: rest => e.Throughout literal operand ∧ Expr.AllThroughout literal operand rest
def Step.Throughout (literal : Value → Prop) (operand : Expr → Prop) : Step → Prop
  | .field _ => True
  | .index key => operand key ∧ key.Throughout literal operand
  | .joinFrom _ => True
  | .call _ args => (∀ e ∈ args, operand e) ∧ Expr.AllThroughout literal operand args
def Step.AllThroughout (literal : Value → Prop) (operand : Expr → Prop) : List Step → Prop
  | [] => True
  | step :: rest => step.Throughout literal operand ∧ Step.AllThroughout literal operand rest
end

/-- Whether the literals of an expression are JSON. -/
def Expr.Plain (e : Expr) : Prop :=
  e.Throughout (fun v => ∃ j, v = .json j) fun _ => True

def Step.Plain (s : Step) : Prop :=
  s.Throughout (fun v => ∃ j, v = .json j) fun _ => True

theorem Expr.allThroughout_iff {literal : Value → Prop} {operand : Expr → Prop} {es : List Expr} :
    AllThroughout literal operand es ↔ ∀ e ∈ es, e.Throughout literal operand := by
  induction es with
  | nil => simp [AllThroughout]
  | cons e es ih => simp [AllThroughout, ih]

theorem Step.allThroughout_iff {literal : Value → Prop} {operand : Expr → Prop}
    {steps : List Step} :
    AllThroughout literal operand steps ↔ ∀ s ∈ steps, s.Throughout literal operand := by
  induction steps with
  | nil => simp [AllThroughout]
  | cons s steps ih => simp [AllThroughout, ih]

namespace Parse

variable {α β : Type}

/-- Whether what was read is as wanted and leaves the end of the tokens, and a crash comes from a
number among them that is too long. -/
def Reads (good : α → Prop) (tokens : List Token) : Except Halt (α × List Token) → Prop
  | .ok (a, rest) => good a ∧ rest <:+ tokens
  | .error (.crash e) => e = .tooManyDigits ∧ ∃ t ∈ tokens, t.Overlong
  | .error (.eval _) => True

def Sound (good : α → Prop) (p : Parse α) : Prop :=
  ∀ tokens, (∀ t ∈ tokens, t.Shaped) → Reads good tokens (p tokens)

namespace Reads

variable {good : α → Prop} {wanted : β → Prop} {tokens : List Token}

theorem later {rest : List Token} {r : Except Halt (α × List Token)} (h : Reads good rest r)
    (behind : rest <:+ tokens) : Reads good tokens r := by
  rcases r with (_ | e) | ⟨a, final⟩
  · trivial
  · obtain ⟨rfl, t, member, long⟩ := h
    exact ⟨rfl, t, behind.subset member, long⟩
  · exact ⟨h.1, h.2.trans behind⟩

theorem bind {r : Except Halt (α × List Token)} {f : α × List Token → Except Halt (β × List Token)}
    (shaped : ∀ t ∈ tokens, t.Shaped) (first : Reads good tokens r)
    (second : ∀ a rest, good a → (∀ t ∈ rest, t.Shaped) → Reads wanted rest (f (a, rest))) :
    Reads wanted tokens (r >>= f) := by
  rcases r with (_ | e) | ⟨a, rest⟩
  · trivial
  · exact first
  · obtain ⟨found, behind⟩ := first
    exact (second a rest found fun t member => shaped t (behind.subset member)).later behind

theorem map {r : Except Halt (α × List Token)} {f : α → β} (h : Reads good tokens r)
    (weaken : ∀ a, good a → wanted (f a)) :
    Reads wanted tokens (r.map fun x => (f x.1, x.2)) := by
  rcases r with (_ | e) | ⟨a, rest⟩
  · trivial
  · exact h
  · exact ⟨weaken a h.1, h.2⟩

end Reads

section Combinators

variable {good : α → Prop} {item : Parse α} (sound : Sound good item)

theorem sound_expect (mark : String) : Sound (fun _ => True) (expect mark) := by
  intro tokens _
  cases tokens with
  | nil => trivial
  | cons t rest =>
    rw [expect]
    split
    · exact ⟨trivial, List.suffix_cons t rest⟩
    · trivial

include sound

theorem sound_separated (isSeparator : Token → Bool) (fuel : Nat) :
    Sound (fun as => ∀ a ∈ as, good a) (separated item isSeparator fuel) := by
  induction fuel with
  | zero => exact fun _ _ => trivial
  | succ fuel ih =>
    intro tokens shaped
    refine (sound tokens shaped).bind shaped fun a rest found shaped => ?_
    dsimp only
    split
    · exact ⟨by simpa using found, List.suffix_rfl⟩
    · rename_i t more
      obtain ⟨_, shaped_more⟩ := List.forall_mem_cons.mp shaped
      split
      · refine ((ih more shaped_more).bind shaped_more fun others final all _ => ?_).later
          (List.suffix_cons t more)
        exact ⟨List.forall_mem_cons.mpr ⟨found, all⟩, List.suffix_rfl⟩
      · exact ⟨by simpa using found, List.suffix_rfl⟩

end Combinators

theorem overlong_of_run {t : Token} (shaped : t.Shaped) (number : t.kind = .number) {run : Text}
    (member : run ∈ t.text.splitOn '.') (refused : Numeral.readInt run = none) : t.Overlong := by
  refine ⟨number, run, member, Nat.lt_of_not_le fun short => ?_⟩
  have read := (Numeral.readInt_digits (shaped.runs number run member)).mpr short
  rw [refused] at read
  cases read

theorem indexSteps_cases {t : Token} (shaped : t.Shaped) (number : t.kind = .number) :
    (∃ steps, indexSteps t = .ok steps ∧ ∀ s ∈ steps, s.Plain) ∨
      indexSteps t = .error (.crash .tooManyDigits) ∧ t.Overlong := by
  have overlong := @overlong_of_run t shaped number
  unfold indexSteps
  generalize t.text.splitOn '.' = runs at overlong
  induction runs with
  | nil => exact .inl ⟨[], rfl, nofun⟩
  | cons run runs ih =>
    rw [List.mapM_cons]
    cases read : Numeral.readInt run with
    | none => exact .inr ⟨rfl, overlong List.mem_cons_self read⟩
    | some n =>
      rcases ih fun member => overlong (List.mem_cons_of_mem _ member) with
        ⟨steps, others, plain⟩ | ⟨failed, long⟩
      · refine .inl ⟨.index (.literal (.scalar (.int n))) :: steps, by rw [others]; rfl, ?_⟩
        exact List.forall_mem_cons.mpr ⟨⟨trivial, .int n, rfl⟩, plain⟩
      · exact .inr ⟨by rw [failed]; rfl, long⟩

theorem reads_numericStep {t : Token} {rest : List Token} (shaped : t.Shaped)
    (number : t.kind = .number) :
    Reads (fun x => ∀ s ∈ x.1, s.Plain) (t :: rest) (numericStep t rest) := by
  have indices : Reads (fun x => ∀ s ∈ x.1, s.Plain) (t :: rest)
      ((indexSteps t).map fun steps => ((steps, t.stop), rest)) := by
    rcases indexSteps_cases shaped number with ⟨steps, read, plain⟩ | ⟨failed, long⟩
    · rw [read]
      exact ⟨plain, List.suffix_cons t rest⟩
    · rw [failed]
      exact ⟨rfl, t, List.mem_cons_self, long⟩
  unfold numericStep
  dsimp only
  split
  · exact indices
  · rename_i plus more
    split
    · rename_i joins
      split
      · refine ⟨List.forall_mem_singleton.mpr trivial, ?_⟩
        exact (List.suffix_cons plus more).trans (List.suffix_cons t _)
      · rename_i refused
        refine ⟨rfl, t, List.mem_cons_self, overlong_of_run shaped number ?_ refused⟩
        rw [Bool.and_eq_true, Bool.not_eq_true', List.contains_eq_mem,
          decide_eq_false_iff_not] at joins
        rw [Token.splitOn_whole joins.2]
        exact List.mem_singleton_self _
    · exact indices

theorem reads_number {t : Token} {rest : List Token} (shaped : t.Shaped)
    (number : t.kind = .number) {f : Scalar → Expr} (plain : ∀ s, (f s).Plain) :
    Reads Expr.Plain (t :: rest) ((numberLiteral t).map fun s => (f s, rest)) := by
  unfold numberLiteral Token.numberValue
  split
  · rename_i point
    rcases shaped number with digits | ⟨whole, fraction, hw, hf, text⟩
    · exact absurd point (digits.ne (by decide))
    · have read := Numeral.readFloat_point hw hf
      rw [← text] at read
      cases value : Numeral.readFloat t.text with
      | none =>
        rw [value] at read
        cases read
      | some x => exact ⟨plain _, List.suffix_cons t rest⟩
  · rename_i whole
    cases value : Numeral.readInt t.text with
    | none =>
      refine ⟨rfl, t, List.mem_cons_self, overlong_of_run shaped number ?_ value⟩
      rw [Token.splitOn_whole whole]
      exact List.mem_singleton_self _
    | some n => exact ⟨plain _, List.suffix_cons t rest⟩

section Grammar

variable {source : Nat → Nat → Text} {inner : Parse Expr} (sound : Sound Expr.Plain inner)

include sound

theorem sound_arguments (fuel : Nat) :
    Sound (fun x => ∀ e ∈ x.1, e.Plain) (arguments inner fuel) := by
  induction fuel with
  | zero => exact fun _ _ => trivial
  | succ fuel ih =>
    intro tokens shaped
    refine (sound tokens shaped).bind shaped fun first rest plain shaped => ?_
    dsimp only
    split
    · trivial
    · rename_i t more
      split
      · exact ⟨List.forall_mem_singleton.mpr plain, List.suffix_cons t more⟩
      · refine (sound_expect "," _ shaped).bind shaped fun _ more _ shaped_more => ?_
        refine (ih more shaped_more).bind shaped_more fun others final all _ => ?_
        exact ⟨List.forall_mem_cons.mpr ⟨plain, all⟩, List.suffix_rfl⟩

theorem sound_callArguments : Sound (fun x => ∀ e ∈ x.1, e.Plain) (callArguments inner) := by
  intro tokens shaped
  cases tokens with
  | nil => exact sound_arguments sound 1 [] shaped
  | cons t rest =>
    rw [callArguments]
    split
    · exact ⟨nofun, List.suffix_cons t rest⟩
    · exact sound_arguments sound _ _ shaped

theorem sound_dottedStep : Sound (fun x => ∀ s ∈ x.1, s.Plain) (dottedStep inner) := by
  intro tokens shaped
  cases tokens with
  | nil => trivial
  | cons t rest =>
    obtain ⟨shaped_first, shaped_rest⟩ := List.forall_mem_cons.mp shaped
    have field : ∀ s ∈ [Step.field t.text], s.Plain := List.forall_mem_singleton.mpr trivial
    unfold dottedStep
    dsimp only
    split
    · split
      · rename_i paren more
        split
        · obtain ⟨_, shaped_more⟩ := List.forall_mem_cons.mp shaped_rest
          refine ((sound_callArguments sound more shaped_more).bind shaped_more
            fun args final plain _ => ?_).later
              ((List.suffix_cons paren more).trans (List.suffix_cons t _))
          refine ⟨List.forall_mem_singleton.mpr ⟨fun _ _ => trivial, ?_⟩, List.suffix_rfl⟩
          exact Expr.allThroughout_iff.mpr plain
        · exact ⟨field, List.suffix_cons t _⟩
      · exact ⟨field, List.suffix_cons t _⟩
    · exact reads_numericStep shaped_first ‹_›
    · trivial

theorem sound_steps (fuel stop : Nat) :
    Sound (fun x => ∀ s ∈ x.1, s.Plain) (steps inner fuel stop) := by
  induction fuel generalizing stop with
  | zero => exact fun tokens _ => ⟨nofun, List.suffix_rfl⟩
  | succ fuel ih =>
    intro tokens shaped
    cases tokens with
    | nil => exact ⟨nofun, List.suffix_rfl⟩
    | cons t rest =>
      obtain ⟨_, shaped_rest⟩ := List.forall_mem_cons.mp shaped
      rw [steps]
      split
      · refine ((sound_dottedStep sound rest shaped_rest).bind shaped_rest
          fun first more plain shaped_more => ?_).later (List.suffix_cons t rest)
        refine (ih _ more shaped_more).bind shaped_more fun others final all _ => ?_
        exact ⟨List.forall_mem_append.mpr ⟨plain, all⟩, List.suffix_rfl⟩
      · split
        · refine ((sound rest shaped_rest).bind shaped_rest
            fun key more plain shaped_more => ?_).later (List.suffix_cons t rest)
          refine (sound_expect "]" more shaped_more).bind shaped_more fun close more _ shaped => ?_
          refine (ih _ more shaped).bind shaped fun others final all _ => ?_
          exact ⟨List.forall_mem_cons.mpr ⟨⟨trivial, plain⟩, all⟩, List.suffix_rfl⟩
        · exact ⟨nofun, List.suffix_rfl⟩

theorem sound_path : Sound (fun p => ∀ s ∈ p.steps, s.Plain) (path source inner) := by
  intro tokens shaped
  cases tokens with
  | nil => trivial
  | cons t rest =>
    obtain ⟨_, shaped_rest⟩ := List.forall_mem_cons.mp shaped
    rw [path]
    split
    · refine ((sound_steps sound _ _ rest shaped_rest).bind shaped_rest
        fun found final plain _ => ?_).later (List.suffix_cons t rest)
      exact ⟨plain, List.suffix_rfl⟩
    · trivial

theorem sound_primary : Sound Expr.Plain (primary source inner) := by
  intro tokens shaped
  cases tokens with
  | nil => trivial
  | cons t rest =>
    obtain ⟨shaped_first, shaped_rest⟩ := List.forall_mem_cons.mp shaped
    have plain (s : Scalar) : (Expr.literal (.scalar s)).Plain := ⟨.scalar s, rfl⟩
    unfold primary
    dsimp only
    split
    · exact reads_number shaped_first ‹_› plain
    · exact ⟨⟨_, rfl⟩, List.suffix_cons t rest⟩
    · split
      · exact ⟨⟨_, rfl⟩, List.suffix_cons t rest⟩
      · refine (sound_path sound (t :: rest) shaped).map fun p plain => ?_
        exact Step.allThroughout_iff.mpr plain
    · split
      · split
        · rename_i n more
          split
          · have number := shaped_rest n List.mem_cons_self
            exact (reads_number number ‹_› fun s => plain (negated s)).later (List.suffix_cons t _)
          · trivial
        · trivial
      · split
        · refine ((sound rest shaped_rest).bind shaped_rest fun e more plain shaped => ?_).later
            (List.suffix_cons t rest)
          refine (sound_expect ")" more shaped).bind shaped fun _ final _ _ => ?_
          exact ⟨plain, List.suffix_rfl⟩
        · trivial

theorem sound_comparison : Sound Expr.Plain (comparison source inner) := by
  intro tokens shaped
  refine (sound_primary sound tokens shaped).bind shaped fun left rest plain shaped => ?_
  dsimp only
  split
  · exact ⟨plain, List.suffix_rfl⟩
  · rename_i t more
    obtain ⟨_, shaped_more⟩ := List.forall_mem_cons.mp shaped
    split
    · refine ((sound_primary sound more shaped_more).bind shaped_more
        fun right final plain' _ => ?_).later (List.suffix_cons t more)
      exact ⟨⟨plain, plain'⟩, List.suffix_rfl⟩
    · exact ⟨plain, List.suffix_rfl⟩

end Grammar

theorem plain_joined {join : List Expr → Expr} (plain : ∀ es, (∀ e ∈ es, e.Plain) → (join es).Plain)
    {es : List Expr} (all : ∀ e ∈ es, e.Plain) : (joined join es).Plain := by
  unfold joined
  split
  · exact all _ List.mem_cons_self
  · exact plain es all

theorem sound_disjunctionOf {unary : Parse Expr} (sound : Sound Expr.Plain unary) :
    Sound Expr.Plain (disjunctionOf unary) := by
  unfold disjunctionOf
  intro tokens shaped
  refine (sound_separated ?_ _ _ tokens shaped).map fun es all =>
    plain_joined (fun _ => Expr.allThroughout_iff.mpr) all
  intro tokens shaped
  exact (sound_separated sound _ _ tokens shaped).map fun es all =>
    plain_joined (fun _ => Expr.allThroughout_iff.mpr) all

theorem sound_unaryWith {source : Nat → Nat → Text} {operand inner : Parse Expr}
    (sound_operand : Sound Expr.Plain operand) (sound_inner : Sound Expr.Plain inner) :
    Sound Expr.Plain (unaryWith source operand inner) := by
  intro tokens shaped
  cases tokens with
  | nil => exact sound_comparison sound_inner [] shaped
  | cons t rest =>
    obtain ⟨_, shaped_rest⟩ := List.forall_mem_cons.mp shaped
    rw [unaryWith]
    split
    · have read := (sound_operand rest shaped_rest).later (List.suffix_cons t rest)
      exact read.map fun _ plain => plain
    · exact sound_comparison sound_inner _ shaped

theorem sound_tooDeep {good : α → Prop} : Sound good tooDeep :=
  fun _ _ => trivial

theorem sound_unary (source : Nat → Nat → Text) (level : Nat) :
    Sound Expr.Plain (unary source level) := by
  induction level with
  | zero => exact sound_unaryWith sound_tooDeep sound_tooDeep
  | succ level ih => exact sound_unaryWith ih (sound_disjunctionOf ih)

theorem sound_disjunction (source : Nat → Nat → Text) (level : Nat) :
    Sound Expr.Plain (disjunction source level) := by
  cases level with
  | zero => exact sound_tooDeep
  | succ level => exact sound_disjunctionOf (sound_unary source level)

end Parse

/-- Whether a result is as wanted, and a crash one of the given. -/
def Yields {α : Type} (good : α → Prop) (crashes : Crash → Prop) : Except Halt α → Prop
  | .ok a => good a
  | .error (.crash e) => crashes e
  | .error (.eval _) => True

namespace Yields

variable {α β : Type} {good : α → Prop} {wanted : β → Prop} {crashes : Crash → Prop}

theorem mono {weaker : α → Prop} {more : Crash → Prop} {r : Except Halt α}
    (h : Yields good crashes r) (weaken : ∀ a, good a → weaker a)
    (add : ∀ e, crashes e → more e) : Yields weaker more r := by
  rcases r with (_ | e) | a
  · trivial
  · exact add e h
  · exact weaken a h

theorem bind {r : Except Halt α} {f : α → Except Halt β} (first : Yields good crashes r)
    (second : ∀ a, good a → Yields wanted crashes (f a)) : Yields wanted crashes (r >>= f) := by
  rcases r with (_ | e) | a
  · trivial
  · exact first
  · exact second a first

end Yields

/-- Whether a text has a number with a run of digits that is too long for an integer. -/
def Text.Overlong (t : Text) : Prop :=
  ∃ tokens, Token.scan t = .ok tokens ∧ ∃ n ∈ tokens, n.Overlong

/-- The crash that reading a text may end in. -/
def Text.Unreadable (t : Text) (e : Crash) : Prop :=
  e = .tooManyDigits ∧ t.Overlong

theorem Parse.Sound.finish {α : Type} {good : α → Prop} {p : Parse α} (sound : Sound good p)
    (t : Text) : Yields good t.Unreadable (do
      let tokens ← (Token.scan t).mapError .eval
      Parse.finish (← p tokens)) := by
  cases scanned : Token.scan t with
  | error e => trivial
  | ok tokens =>
    have read := sound tokens (Token.shaped_scanAt scanned)
    change Yields good t.Unreadable (p tokens >>= Parse.finish)
    rcases result : p tokens with (_ | e) | ⟨a, rest⟩ <;> rw [result] at read
    · trivial
    · exact ⟨read.1, tokens, scanned, read.2⟩
    · cases rest with
      | nil => exact read.1
      | cons t rest => trivial

theorem Expr.parse_yields (t : Text) : Yields Expr.Plain t.Unreadable (Expr.parse t) :=
  (Parse.sound_disjunction _ _).finish t

theorem Path.parse_yields (t : Text) :
    Yields (fun p => ∀ s ∈ p.steps, s.Plain) (Text.strip t).Unreadable (Path.parse t) :=
  (Parse.sound_path (Parse.sound_disjunction _ _)).finish _

end ChatCommands
