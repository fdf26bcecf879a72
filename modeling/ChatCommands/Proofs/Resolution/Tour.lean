import ChatCommands.Proofs.Resolution.Local
import ChatCommands.Proofs.Resolution.Simulation
import ChatCommands.Proofs.Template.Passing
import ChatCommands.Resolution.Tour

/-!
What the loops of a resolution come to, on every level.

A resolution gives the same with and without the record. Every span in the record is what the scan
and the pairing of its text say it is, because the loops pass their regions one by one.
-/

namespace ChatCommands

open Arena

/-- Whether a span in the record is one at the top of its text, with nothing written to it, and the
opener of its block if it is a marker. -/
structure Visit.Sound (v : Visit) : Prop where
  read : ∃ whole, Block.ofText v.template = .ok (whole, v.blocks) ∧ v.region ∈ whole.regions ∧
    v.arena.regionText v.region = whole.regionText v.region
  span : ∃ found s, Span.scan v.template = .ok found ∧ found[v.region.index]? = some s ∧
    s.parent = none ∧ s.depth = 0 ∧ v.arena.regionText v.region = s.text v.template
  unwritten : ∀ k, v.region.first ≤ k → k ≤ v.region.last →
    ∃ s, v.arena.slots[k]? = some s ∧ s.written = false
  unmarked : v.arena.verb v.region ≠ .marker
  block : v.arena.verb v.region = .condition → ∃ b ∈ v.blocks, b.opener = v.region ∧
    v.blocks.find? (fun b => b.opener.index == v.region.index) = some b

/-- A region that a loop meets makes a sound visit. -/
theorem Passing.sound {t : Text} {whole a : Arena} {blocks : List Block}
    (read : Block.ofText t = .ok (whole, blocks)) {r : Region} {rest : List Region}
    (h : Passing whole blocks (r :: rest) a) (live : a.isVoid r.index = false) :
    Visit.Sound ⟨t, blocks, r, a⟩ := by
  obtain ⟨balanced, rfl, paired⟩ := ofText_eq_ok.mp read
  have met := h.met balanced paired live
  obtain ⟨done, log, split, behind⟩ := h.behind balanced paired
  have here := (number_eq balanced split).1
  have member := List.mem_of_getElem? here
  refine ⟨⟨_, read, member, met.text⟩, ?_, met.unwritten, met.unmarked, met.block⟩
  rw [fresh_regions, List.getElem?_mapIdx, Option.map_eq_some_iff] at here
  obtain ⟨s, place, same⟩ := here
  have text := regionText_regionOf balanced (List.mem_of_getElem? place) r.index
  refine ⟨_, s, balanced.scan_eq, place, ?_, ?_, ?_⟩
  · exact (congrArg Region.parent same).trans met.top.1
  · exact (congrArg Region.depth same).trans met.top.2
  · exact met.text.trans (same ▸ text)

namespace Tour

variable {α β : Type}

theorem outcome_bind (y : Tour α) (g : α → Tour β) (seen : List Visit) (start : Run) :
    (y >>= g).outcome seen start = match y.outcome seen start with
      | ((.ok a, seen'), next) => (g a).outcome seen' next
      | ((.error e, seen'), next) => ((.error e, seen'), next) := by
  change (match y.outcome seen start with
    | ((r, seen'), next) => ExceptT.bindCont g r seen' next) = _
  rcases y.outcome seen start with ⟨⟨_ | _, seen'⟩, next⟩ <;> rfl

/-- Whether a computation does what another does that has no record, and records sound visits. -/
def Records (x : Resolve α) (y : Tour α) : Prop :=
  ∀ (seen : List Visit) (start : Run), ∃ visits, (∀ v ∈ visits, v.Sound) ∧
    y.outcome seen start = (((x.outcome start).1, seen ++ visits), (x.outcome start).2)

namespace Records

/-- What records nothing does the same without a record. -/
theorem silent {x : Resolve α} {y : Tour α}
    (same : ∀ seen start,
      y.outcome seen start = (((x.outcome start).1, seen), (x.outcome start).2)) :
    Records x y :=
  fun seen start => ⟨[], by simp, by rw [same, List.append_nil]⟩

theorem pure (a : α) : Records (pure a) (pure a) :=
  silent fun _ _ => rfl

theorem throw (f : Fault) : Records (throw f : Resolve α) (throw f) :=
  silent fun _ _ => rfl

theorem bind {x : Resolve α} {y : Tour α} {f : α → Resolve β} {g : α → Tour β}
    (first : Records x y) (second : ∀ a, Records (f a) (g a)) : Records (x >>= f) (y >>= g) := by
  intro seen start
  obtain ⟨visits, sound, same⟩ := first seen start
  rw [outcome_bind, same, Resolve.outcome_bind]
  rcases x.outcome start with ⟨e | a, next⟩
  · exact ⟨visits, sound, rfl⟩
  · obtain ⟨more, sound', same'⟩ := second a (seen ++ visits) next
    refine ⟨visits ++ more, List.forall_mem_append.mpr ⟨sound, sound'⟩, ?_⟩
    rw [← List.append_assoc]
    exact same'

theorem count (c : Context) (depth : Nat) (i : Instruction) (a : Arena) :
    Records (Resolve.count c depth i a) (Resolve.count c depth i a) := by
  refine silent fun seen start => ?_
  have counted : (Resolve.count c depth i a : Tour Unit).outcome seen start =
      (if c.maxSteps < start.steps + 1 then
        Resolve.stop (.limit ⟨c.maxSteps, a.text, start.effects.bindings, i.text⟩)
      else Pure.pure () : Tour Unit).outcome seen (start.counted depth i) := rfl
  rw [counted, Resolve.count_outcome]
  split <;> rfl

def simulation : Resolve.Simulation Tour where
  rel := Records
  pure := pure
  throw := throw
  bind := bind
  effects := silent fun _ _ => rfl
  setEffects _ := silent fun _ _ => rfl
  scope _ := silent fun _ _ => rfl
  count := count

/-- A sound visit is recorded, and then everything goes on as without a record. -/
theorem record {v : Visit} (sound : v.Sound) {x : Resolve α} {g : PUnit → Tour α}
    (h : Records x (g ⟨⟩)) : Records x (record v >>= g) := by
  intro seen start
  obtain ⟨visits, sound', same⟩ := h (seen ++ [v]) start
  refine ⟨v :: visits, List.forall_mem_cons.mpr ⟨sound, sound'⟩, ?_⟩
  rw [List.append_cons]
  exact same

section Levels

variable {c : Context} {inner : Text → Resolve Text} {inner' : Text → Tour Text}
  (nested : ∀ t, Records (inner t) (inner' t))
include nested

theorem walk (depth : Nat) {t : Text} {whole : Arena} {blocks : List Block}
    (read : Block.ofText t = .ok (whole, blocks)) {rs : List Region} {a : Arena}
    (passing : Passing whole blocks rs a) :
    Records (Resolve.walk c inner depth blocks rs a) (Tour.walk c inner' depth t blocks rs a) := by
  induction rs generalizing a with
  | nil => exact pure a
  | cons r rest ih =>
    rw [Resolve.walk, Tour.walk]
    cases live : a.isVoid r.index with
    | true => exact ih (passing.skipped live)
    | false =>
      refine record (passing.sound read live) (bind (count c depth _ a) fun _ => ?_)
      cases verb : Verb.ofKeyword (Instruction.decode (a.regionText r)).keyword with
      | condition =>
        refine bind (simulation.condition nested c _) fun holds => ?_
        cases found : blocks.find? fun b => b.opener.index == r.index with
        | some b => exact ih (passing.chosen holds live verb found)
        | none => exact throw _
      | _ =>
        refine bind (simulation.perform nested c _ _) fun new => ih ?_
        exact passing.replaced new live (by rw [Arena.verb, verb]; decide)

theorem level (depth : Nat) (t : Text) :
    Records (Resolve.level c inner depth t) (Tour.level c inner' depth t) := by
  rw [Resolve.level, Tour.level]
  cases read : Block.ofText t with
  | error e => exact throw _
  | ok found => exact (walk nested depth read .start).bind fun _ => pure _

end Levels

theorem text (c : Context) (levels : Nat) (t : Text) :
    Records (Resolve.text c levels t) (Tour.text c levels t) := by
  induction levels generalizing t with
  | zero => exact level (fun _ => throw _) _ t
  | succ levels ih => exact level ih _ t

end Records

/-- Every span that a loop of a resolution comes to, on any level, is at the top of the text of its
level and is still as the scan found it; an opener has its block, and the other markers are never
come to. -/
theorem text_sound (c : Context) (levels : Nat) (t : Text) (start : Run) :
    ∃ visits : List Visit, (∀ v ∈ visits, v.Sound) ∧ (Tour.text c levels t).outcome [] start =
      ((((Resolve.text c levels t).outcome start).1, visits),
        ((Resolve.text c levels t).outcome start).2) :=
  Records.text c levels t [] start

end Tour

end ChatCommands
