import ChatCommands.Proofs.Resolution.Local

/-!
The course that a resolution takes.

Apart from the counting of instructions only the effects change, and `Effects.Change` says once in
which ways. What holds of the effects at every boundary between instructions is a case analysis
over it, followed by one induction over the course.
-/

namespace ChatCommands

namespace Text

def IsNameLetter (c : Char) : Prop :=
  'a' ≤ c ∧ c ≤ 'z' ∨ 'A' ≤ c ∧ c ≤ 'Z' ∨ c = '_'

/-- Whether a text is an identifier in ASCII, which begins with no digit. -/
def IsIdentifier (t : Text) : Prop :=
  ∃ first rest, t = first :: rest ∧ IsNameLetter first ∧
    ∀ c ∈ rest, IsNameLetter c ∨ '0' ≤ c ∧ c ≤ '9'

theorem isNameLetter_iff {c : Char} : IsNameLetter c ↔ (c.isAlpha || c == '_') = true := by
  have alpha : c.isAlpha = (c.isUpper || c.isLower) := rfl
  have upper : c.isUpper = decide ('A' ≤ c ∧ c ≤ 'Z') := rfl
  have lower : c.isLower = (decide ('a' ≤ c) && decide (c ≤ 'z')) := rfl
  simp only [IsNameLetter, alpha, upper, lower, Bool.or_eq_true, Bool.and_eq_true,
    decide_eq_true_eq, beq_iff_eq]
  constructor
  · rintro (low | high | rfl)
    · exact .inl (.inr low)
    · exact .inl (.inl high)
    · exact .inr rfl
  · rintro ((high | low) | rfl)
    · exact .inr (.inl high)
    · exact .inl low
    · exact .inr (.inr rfl)

theorem isIdentifier_of_variable {t : Text} (h : Resolve.isVariableName t = true) :
    t.IsIdentifier := by
  cases t with
  | nil => cases h
  | cons c rest =>
    simp only [Resolve.isVariableName, Bool.and_eq_true, List.all_eq_true] at h
    refine ⟨c, rest, rfl, isNameLetter_iff.mpr h.1, fun d hd => ?_⟩
    have letter := h.2 d hd
    simp only [Char.isAlphanum, Bool.or_eq_true] at letter
    rcases letter with (alpha | digit) | line
    · exact .inl (isNameLetter_iff.mpr (by simp [alpha]))
    · rw [Char.isDigit, Bool.and_eq_true, decide_eq_true_eq, decide_eq_true_eq] at digit
      exact .inr digit
    · exact .inl (isNameLetter_iff.mpr (by simp [line]))

theorem IsIdentifier.variable {t : Text} (h : t.IsIdentifier) : Resolve.isVariableName t = true := by
  obtain ⟨c, rest, rfl, first, others⟩ := h
  rw [Resolve.isVariableName, isNameLetter_iff.mp first, Bool.true_and, List.all_eq_true]
  intro d member
  rw [Char.isAlphanum, Bool.or_right_comm, Bool.or_eq_true]
  rcases others d member with letter | digit
  · exact .inl (isNameLetter_iff.mp letter)
  · apply Or.inr
    rw [Char.isDigit, Bool.and_eq_true, decide_eq_true_eq, decide_eq_true_eq]
    exact digit

end Text

/-- Whether a draw had something to draw from. -/
def Draw.Possible : Draw → Prop
  | .integer low high => low ≤ high
  | .item count => 0 < count

namespace Effects

/-- What may become of the effects between two instructions that are counted. -/
inductive Change (s : Server) (e : Effects) : Effects → Prop
  | assigned {name : Text} (v : Value) (named : Resolve.isVariableName name = true) :
      Change s e (e.assign name v)
  | queued (t : Text) : Change s e (e.queue t)
  | attached {t : Sticker} (offered : t ∈ s.stickers)
      (few : e.stickers.length < Resolve.maxStickers) : Change s e (e.attach ⟨t.id, t.name⟩)
  | drewInteger {low high : Int} (order : low ≤ high) : Change s e (e.drawInteger low high).2
  | drewItem {count : Nat} (nonempty : 0 < count) : Change s e (e.drawIndex count).2
  | requested (t : Transport) : Change s e { e with transport := some t }

/-- What holds of the effects at every boundary between instructions. -/
structure Sound (s : Server) (e : Effects) : Prop where
  few : e.stickers.length ≤ 3
  offered : ∀ a ∈ e.stickers, ∃ t ∈ s.stickers, a = ⟨t.id, t.name⟩
  named : ∀ b ∈ e.bindings, b.1.IsIdentifier
  possible : ∀ d ∈ e.draws, d.Possible

/-- Whether followups, stickers and draws have only been appended to. -/
structure Extends (e e' : Effects) : Prop where
  followups : e.followups <+: e'.followups
  stickers : e.stickers <+: e'.stickers
  draws : e.draws <+: e'.draws

theorem sound_fresh (s : Server) (rolls : List Nat) (transport : Option Transport) :
    Sound s ⟨[], [], [], rolls, [], transport⟩ where
  few := Nat.zero_le _
  offered _ h := nomatch h
  named _ h := nomatch h
  possible _ h := nomatch h

theorem Extends.refl (e : Effects) : e.Extends e :=
  ⟨List.prefix_rfl, List.prefix_rfl, List.prefix_rfl⟩

theorem Extends.trans {e e' e'' : Effects} (h : e.Extends e') (h' : e'.Extends e'') :
    e.Extends e'' :=
  ⟨h.followups.trans h'.followups, h.stickers.trans h'.stickers, h.draws.trans h'.draws⟩

variable {s : Server} {e e' : Effects}

theorem Change.extends (h : e.Change s e') : e.Extends e' := by
  cases h with
  | assigned | requested => exact ⟨List.prefix_rfl, List.prefix_rfl, List.prefix_rfl⟩
  | queued => exact ⟨List.prefix_append _ _, List.prefix_rfl, List.prefix_rfl⟩
  | attached => exact ⟨List.prefix_rfl, List.prefix_append _ _, List.prefix_rfl⟩
  | drewInteger | drewItem => exact ⟨List.prefix_rfl, List.prefix_rfl, List.prefix_append _ _⟩

theorem Sound.change (sound : e.Sound s) (h : e.Change s e') : e'.Sound s := by
  cases h with
  | assigned v named =>
    refine ⟨sound.few, sound.offered, fun b hb => ?_, sound.possible⟩
    rcases Json.mem_setField hb with new | old
    · rw [new]
      exact Text.isIdentifier_of_variable named
    · exact sound.named b old
  | queued | requested => exact ⟨sound.few, sound.offered, sound.named, sound.possible⟩
  | @attached t offered few =>
    refine ⟨?_, fun a ha => ?_, sound.named, sound.possible⟩
    · rw [attach, List.length_append]
      exact few
    · rcases List.mem_append.mp ha with old | new
      · exact sound.offered a old
      · exact ⟨t, offered, List.mem_singleton.mp new⟩
  | drewInteger order =>
    refine ⟨sound.few, sound.offered, sound.named, fun d hd => ?_⟩
    rcases List.mem_append.mp hd with old | new
    · exact sound.possible d old
    · exact List.mem_singleton.mp new ▸ order
  | drewItem nonempty =>
    refine ⟨sound.few, sound.offered, sound.named, fun d hd => ?_⟩
    rcases List.mem_append.mp hd with old | new
    · exact sound.possible d old
    · exact List.mem_singleton.mp new ▸ nonempty

theorem grown_snoc {before : List Effects} {last next : Effects}
    (grown : (before ++ [last]).Pairwise Extends) (h : last.Extends next) :
    (before ++ [last] ++ [next]).Pairwise Extends := by
  refine List.pairwise_append.mpr ⟨grown, List.pairwise_singleton _ _, ?_⟩
  intro b hb c hc
  rw [List.mem_singleton.mp hc]
  rcases List.mem_append.mp hb with earlier | here
  · exact ((List.pairwise_append.mp grown).2.2 b earlier last List.mem_cons_self).trans h
  · exact List.mem_singleton.mp here ▸ h

end Effects

namespace Run

/-- The states that a run may reach: effects change, and instructions are counted. -/
inductive Course (s : Server) (start : Run) : Run → Prop
  | start : Course s start start
  | change {r : Run} {e : Effects} (before : Course s start r) (h : r.effects.Change s e) :
      Course s start { r with effects := e }
  | count {r : Run} (before : Course s start r) (depth : Nat) (i : Instruction) :
      Course s start (r.counted depth i)

namespace Course

variable {s : Server} {start r : Run}

theorem trans {last : Run} (first : Course s start r) (second : Course s r last) :
    Course s start last := by
  induction second with
  | start => exact first
  | change _ h ih => exact ih.change h
  | count _ depth i ih => exact ih.count depth i

/-- At every boundary of a course the effects are sound, and they extend those of every boundary
before. -/
theorem boundaries (h : Course s start r) (sound : start.effects.Sound s) :
    ∃ more, r.trace = start.trace ++ more ∧ r.steps = start.steps + more.length ∧
      (∀ e ∈ start.effects :: more.map Moment.effects ++ [r.effects], e.Sound s) ∧
      (start.effects :: more.map Moment.effects ++ [r.effects]).Pairwise Effects.Extends := by
  induction h with
  | start =>
    refine ⟨[], by simp, by simp, by simp [sound], ?_⟩
    simp [Effects.Extends.refl]
  | @change r e before h ih =>
    obtain ⟨more, trace, steps, all, grown⟩ := ih
    rw [List.forall_mem_append, List.forall_mem_singleton] at all
    refine ⟨more, trace, steps, ?_, (Effects.grown_snoc grown h.extends).sublist ?_⟩
    · rw [List.forall_mem_append, List.forall_mem_singleton]
      exact ⟨all.1, all.2.change h⟩
    · exact (List.sublist_append_left _ _).append_right _
  | @count r before depth i ih =>
    obtain ⟨more, trace, steps, all, grown⟩ := ih
    have longer : start.effects ::
        (more ++ [⟨i.text, depth, r.effects⟩] : List Moment).map Moment.effects ++ [r.effects] =
          start.effects :: more.map Moment.effects ++ [r.effects] ++ [r.effects] := by
      simp
    refine ⟨more ++ [⟨i.text, depth, r.effects⟩], ?_, ?_, ?_, ?_⟩
    · rw [counted, trace, List.append_assoc]
    · simp only [counted, List.length_append, List.length_singleton]
      omega
    · rw [counted, longer, List.forall_mem_append]
      exact ⟨all, (List.forall_mem_append.mp all).2⟩
    · rw [counted, longer]
      exact Effects.grown_snoc grown (.refl _)

end Course

end Run

namespace Resolve

variable {α β : Type}

/-- Whether a computation that starts here follows the course, and a value that it gives has a
property. -/
def OrderlyAt (s : Server) (post : α → Prop) (x : Resolve α) (start : Run) : Prop :=
  Run.Course s start (x.outcome start).2 ∧ ∀ a, (x.outcome start).1 = .ok a → post a

def Orderly (s : Server) (post : α → Prop) (x : Resolve α) : Prop :=
  ∀ start, OrderlyAt s post x start

variable {s : Server} {post : α → Prop}

theorem OrderlyAt.write {start : Run} {e : Effects} {x : Resolve α}
    (change : start.effects.Change s e) (rest : Orderly s post x) :
    OrderlyAt s post (setEffects e >>= fun _ => x) start := by
  obtain ⟨course, result⟩ := rest { start with effects := e }
  exact ⟨(Run.Course.start.change change).trans course, result⟩

namespace Orderly

theorem pure {a : α} (h : post a) : Orderly s post (pure a) := by
  refine fun start => ⟨.start, fun b same => ?_⟩
  cases same
  exact h

theorem throw (f : Fault) : Orderly s post (throw f : Resolve α) :=
  fun _ => ⟨.start, nofun⟩

theorem stop (e : TemplateError) : Orderly s post (Resolve.stop e : Resolve α) :=
  throw _

theorem refuse (e : InstructionError) : Orderly s post (Resolve.refuse e : Resolve α) :=
  throw _

theorem bind {next : β → Prop} {x : Resolve α} {f : α → Resolve β} (first : Orderly s post x)
    (second : ∀ a, post a → Orderly s next (f a)) : Orderly s next (x >>= f) := by
  intro start
  obtain ⟨course, result⟩ := first start
  rw [OrderlyAt, outcome_bind]
  rcases hx : x.outcome start with ⟨e | a, later⟩ <;> simp only [hx] at course result
  · exact ⟨course, nofun⟩
  · obtain ⟨course', result'⟩ := second a (result a rfl) later
    exact ⟨course.trans course', result'⟩

theorem refuse_bind (e : InstructionError) (f : β → Resolve α) :
    Orderly s post (Resolve.refuse e >>= f) :=
  fun _ => ⟨.start, nofun⟩

theorem ofCrash (r : Except Crash α) : Orderly s (fun _ => True) (Resolve.ofCrash r) := by
  cases r with
  | ok a => exact pure trivial
  | error e => exact throw _

theorem ofGate (r : Except TemplateError α) : Orderly s (fun _ => True) (Resolve.ofGate r) := by
  cases r with
  | ok a => exact pure trivial
  | error e => exact stop e

theorem read {f : Effects → Resolve α}
    (h : ∀ start, OrderlyAt s post (f start.effects) start) :
    Orderly s post (effects >>= f) :=
  h

theorem scope (c : Context) : Orderly s (fun _ => True) (Resolve.scope c) :=
  fun _ => ⟨.start, fun _ _ => trivial⟩

theorem count (c : Context) (depth : Nat) (i : Instruction) (a : Arena) :
    Orderly s (fun _ => True) (Resolve.count c depth i a) := by
  intro start
  rw [OrderlyAt, count_outcome]
  exact ⟨Run.Course.start.count depth i, fun _ _ => trivial⟩

theorem lookUp (c : Context) (path : Text) : Orderly s (fun _ => True) (Resolve.lookUp c path) := by
  refine bind (scope c) fun scope _ => bind (ofCrash _) fun found _ => ?_
  cases found with
  | none => exact pure trivial
  | some v => exact bind (ofCrash _) fun _ _ => pure trivial

section Handling

variable {inner : Text → Resolve Text} (nested : ∀ t, Orderly s (fun _ => True) (inner t))
include nested

theorem argument (raw : Text) : Orderly s (fun _ => True) (Resolve.argument inner raw) := by
  unfold Resolve.argument
  split
  · exact nested raw
  · exact pure trivial

theorem nameArgument (raw : Text) :
    Orderly s (fun name => isVariableName name = true) (Resolve.nameArgument inner raw) := by
  refine bind (argument nested raw) fun t _ => ?_
  dsimp only
  split
  · exact pure ‹_›
  · exact refuse _

theorem set (i : Instruction) : Orderly s (fun _ => True) (Resolve.set inner i) := by
  unfold Resolve.set
  split
  · exact refuse _
  · refine bind (nameArgument nested _) fun name named => ?_
    refine bind (argument nested _) fun value _ => read fun start => ?_
    exact .write (.assigned _ named) (pure trivial)

theorem bound (i : Instruction) (raw : Text) :
    Orderly s (fun _ => True) (Resolve.bound inner i raw) := by
  refine bind (argument nested raw) fun t _ => ?_
  dsimp only
  split
  · exact pure trivial
  · exact refuse _

theorem random (i : Instruction) : Orderly s (fun _ => True) (Resolve.random inner i) := by
  unfold Resolve.random
  split
  · refine bind (bound nested i _) fun a _ => bind (bound nested i _) fun b _ => ?_
    refine read fun start => ?_
    by_cases order : b < a
    · rw [if_pos order]
      exact .write (.drewInteger (Int.le_of_lt order)) (pure trivial)
    · rw [if_neg order]
      exact .write (.drewInteger (Int.not_lt.mp order)) (pure trivial)
  · exact refuse _

theorem choose (i : Instruction) : Orderly s (fun _ => True) (Resolve.choose inner i) := by
  unfold Resolve.choose
  split
  · exact pure trivial
  · rename_i some
    have nonempty : 0 < i.args.length := by
      simpa [List.length_pos_iff] using some
    exact read fun start => .write (.drewItem nonempty) (argument nested _)

theorem followup (i : Instruction) : Orderly s (fun _ => True) (Resolve.followup inner i) :=
  bind (argument nested _) fun t _ => read fun _ => .write (.queued t) (pure trivial)

theorem urlArgument (raw : Text) : Orderly s (fun _ => True) (Resolve.urlArgument inner raw) := by
  refine bind (argument nested raw) fun t _ => bind (ofCrash _) fun scheme _ => ?_
  split
  · exact pure trivial
  · exact refuse _

theorem methodArgument (raw : Option Text) :
    Orderly s (fun _ => True) (Resolve.methodArgument inner raw) := by
  cases raw with
  | none => exact pure trivial
  | some raw =>
    unfold Resolve.methodArgument
    dsimp only
    split
    · exact pure trivial
    · exact bind (argument nested raw) fun _ _ => pure trivial

theorem bodyArgument (i : Instruction) (url : Text) :
    Orderly s (fun _ => True) (Resolve.bodyArgument inner i url) := by
  unfold Resolve.bodyArgument
  split
  · exact pure trivial
  · refine bind (argument nested _) fun t _ => ?_
    dsimp only
    split
    · exact pure trivial
    · exact refuse _
    · exact throw _

omit nested in
theorem fetch (url method : Text) (body : Json) :
    Orderly s (fun _ => True) (Resolve.fetch url method body) := by
  refine read fun start => ?_
  split
  · exact refuse _ start
  · refine .write (.requested _) ?_
    split
    · exact pure trivial
    · exact stop _

omit nested in
theorem dataOf (url : Text) (r : Response) :
    Orderly s (fun _ => True) (Resolve.dataOf url r) := by
  unfold Resolve.dataOf
  repeat' split
  · exact pure trivial
  · exact stop _
  · exact throw _
  · exact stop _

theorem webrequest (c : Context) (i : Instruction) :
    Orderly s (fun _ => True) (Resolve.webrequest c inner i) := by
  rw [Resolve.webrequest]
  split
  · exact refuse_bind _ _
  · dsimp only
    split
    · refine bind (nameArgument nested _) fun name named => ?_
      refine bind (urlArgument nested _) fun url _ => bind (methodArgument nested _) fun method _ => ?_
      refine bind (bodyArgument nested i url) fun body _ => bind (fetch _ _ _) fun response _ => ?_
      refine bind (dataOf _ _) fun data _ => read fun start => ?_
      exact .write (.assigned _ named) (pure trivial)
    · exact refuse _

theorem sticker {c : Context} (server : c.snapshot.server = s) (i : Instruction) :
    Orderly s (fun _ => True) (Resolve.sticker c inner i) := by
  refine bind (argument nested _) fun t _ => ?_
  dsimp only
  split
  · exact stop _
  · rename_i found
    rw [server] at found
    refine read fun start => ?_
    split
    · exact refuse_bind _ _ start
    · rename_i few
      exact .write (.attached (List.mem_of_find?_eq_some found) (Nat.not_le.mp few)) (pure trivial)

theorem condition (c : Context) (i : Instruction) :
    Orderly s (fun _ => True) (Resolve.condition c inner i) :=
  bind (argument nested _) fun _ _ => bind (scope c) fun _ _ => ofCrash _

theorem perform {c : Context} (server : c.snapshot.server = s) (v : Verb) (i : Instruction) :
    Orderly s (fun _ => True) (Resolve.perform c inner v i) := by
  cases v with
  | set => exact set nested i
  | var | reference =>
    exact bind (argument nested _) fun path _ => bind (lookUp c path) fun _ _ => pure trivial
  | random => exact random nested i
  | choose => exact choose nested i
  | require | exclude =>
    exact bind (argument nested _) fun t _ => bind (ofGate _) fun _ _ => pure trivial
  | followup => exact followup nested i
  | webrequest => exact webrequest nested c i
  | sticker => exact sticker nested server i
  | condition | marker => exact pure trivial

theorem walk {c : Context} (server : c.snapshot.server = s) (depth : Nat) (blocks : List Block)
    (rs : List Region) (a : Arena) :
    Orderly s (fun _ => True) (Resolve.walk c inner depth blocks rs a) := by
  induction rs generalizing a with
  | nil => exact pure trivial
  | cons r rest ih =>
    rw [Resolve.walk]
    split
    · exact ih a
    · refine bind (count c depth _ a) fun _ _ => ?_
      split
      · refine bind (condition nested c _) fun holds _ => ?_
        split
        · exact ih _
        · exact throw _
      · exact bind (perform nested server _ _) fun new _ => ih _

theorem level {c : Context} (server : c.snapshot.server = s) (depth : Nat) (t : Text) :
    Orderly s (fun _ => True) (Resolve.level c inner depth t) := by
  unfold Resolve.level
  split
  · exact stop _
  · exact bind (walk nested server _ _ _ _) fun _ _ => pure trivial

end Handling

/-- Every level of resolution follows the course. -/
theorem text (c : Context) (levels : Nat) (t : Text) :
    Orderly c.snapshot.server (fun _ => True) (Resolve.text c levels t) := by
  induction levels generalizing t with
  | zero => exact level (fun _ => refuse _) rfl _ t
  | succ levels ih => exact level ih rfl _ t

end Orderly

end Resolve

end ChatCommands
