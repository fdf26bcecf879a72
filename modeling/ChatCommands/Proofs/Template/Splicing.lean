import ChatCommands.Proofs.Template.Writing
import ChatCommands.Template.Buffer

/-!
An edit of a buffer is a splice of its text.

The slots in front of a write and those behind it stay, so every offset in front stays and every
offset behind moves by the change of length. The offsets that a buffer keeps are those of its slots,
because each write drops them.
-/

namespace ChatCommands

namespace Arena

theorem totalLength_eq (slots : List Slot) :
    totalLength slots = (slots.flatMap Slot.text).length := by
  induction slots with
  | nil => rfl
  | cons s rest ih => rw [totalLength, ih, List.flatMap_cons, List.length_append]

theorem offset_eq (a : Arena) (k : Nat) :
    a.offset k = ((a.slots.take k).flatMap Slot.text).length :=
  totalLength_eq _

/-- The text is cut at every offset. -/
theorem text_cut (a : Arena) (k : Nat) :
    a.text.take (a.offset k) = (a.slots.take k).flatMap Slot.text ∧
      a.text.drop (a.offset k) = (a.slots.drop k).flatMap Slot.text := by
  have split : a.text =
      (a.slots.take k).flatMap Slot.text ++ (a.slots.drop k).flatMap Slot.text := by
    rw [← List.flatMap_append, List.take_append_drop, text]
  rw [split, offset_eq]
  exact ⟨List.take_left, List.drop_left⟩

theorem offset_between (a : Arena) {j k : Nat} (order : j ≤ k) :
    a.offset k = a.offset j + (((a.slots.take k).drop j).flatMap Slot.text).length := by
  have split : a.slots.take k = a.slots.take j ++ (a.slots.take k).drop j := by
    have front : a.slots.take j = (a.slots.take k).take j := by
      rw [List.take_take, Nat.min_eq_left order]
    rw [front, List.take_append_drop]
  rw [offset_eq, offset_eq, ← List.length_append, ← List.flatMap_append, ← split]

section Write

variable {a : Arena} {first last : Nat} (order : first ≤ last) (inside : last < a.slots.length)
  (new : Text)
include order inside

theorem slots_write : (a.write first last new).slots =
    a.slots.take first ++
      (⟨new, true⟩ :: List.replicate (last - first) ⟨[], true⟩ ++ a.slots.drop (last + 1)) := by
  let x : Arena := ⟨a.slots.take first, []⟩
  let y : Arena := ⟨(a.slots.take (last + 1)).drop first, []⟩
  let z : Arena := ⟨a.slots.drop (last + 1), []⟩
  have parts : a.slots = (x ++ (y ++ z)).slots := by
    have front : a.slots.take first = (a.slots.take (last + 1)).take first := by
      rw [List.take_take, Nat.min_eq_left (by omega)]
    change a.slots = a.slots.take first ++ ((a.slots.take (last + 1)).drop first ++ _)
    rw [front, ← List.append_assoc, List.take_append_drop, List.take_append_drop]
  have before : x.slots.length = first := by
    rw [List.length_take]
    omega
  have length : y.slots.length = last - first + 1 := by
    rw [List.length_drop, List.length_take]
    omega
  have middle := slots_write_middle (x := x) (y := y) (by omega) z new
  rw [before, length, Nat.add_sub_cancel, Nat.add_sub_cancel' order] at middle
  calc (a.write first last new).slots = ((x ++ (y ++ z)).write first last new).slots := by
        simp only [write, parts]
    _ = _ := by
        rw [middle, slots_append, slots_append, blank, length, Nat.add_sub_cancel]

theorem take_write {k : Nat} (before : k ≤ first) :
    (a.write first last new).slots.take k = a.slots.take k := by
  have short : k ≤ (a.slots.take first).length := by
    rw [List.length_take]
    omega
  rw [slots_write order inside, List.take_append_of_le_length short, List.take_take,
    Nat.min_eq_left before]

theorem drop_write {k : Nat} (behind : last < k) :
    (a.write first last new).slots.drop k = a.slots.drop k := by
  have whole := slots_write order inside new
  rw [← List.append_assoc] at whole
  have length : (a.slots.take first ++
      (⟨new, true⟩ :: List.replicate (last - first) (⟨[], true⟩ : Slot))).length = last + 1 := by
    rw [List.length_append, List.length_take, List.length_cons, List.length_replicate]
    omega
  have far : k = last + 1 + (k - (last + 1)) := by omega
  rw [whole, far, ← List.drop_drop, List.drop_left' length, List.drop_drop]

theorem text_write : (a.write first last new).text =
    a.text.take (a.offset first) ++ new ++ a.text.drop (a.offset (last + 1)) := by
  rw [(a.text_cut first).1, (a.text_cut (last + 1)).2, text, slots_write order inside]
  simp

theorem offset_write_before {k : Nat} (before : k ≤ first) :
    (a.write first last new).offset k = a.offset k := by
  rw [offset_eq, offset_eq, take_write order inside new before]

theorem offset_write_behind {k : Nat} (behind : last < k) :
    (a.write first last new).offset k + a.offset (last + 1) =
      a.offset k + (a.offset first + new.length) := by
  have end_write : (a.write first last new).offset (last + 1) = a.offset first + new.length := by
    have length : (a.slots.take first ++
        (⟨new, true⟩ :: List.replicate (last - first) (⟨[], true⟩ : Slot))).length = last + 1 := by
      rw [List.length_append, List.length_take, List.length_cons, List.length_replicate]
      omega
    rw [offset_eq, offset_eq, slots_write order inside, ← List.append_assoc,
      List.take_left' length]
    simp
  have new_side := (a.write first last new).offset_between (j := last + 1) (k := k) behind
  have old_side := a.offset_between (j := last + 1) (k := k) behind
  rw [List.drop_take, drop_write order inside new (Nat.lt_succ_self last), ← List.drop_take,
    end_write] at new_side
  omega

theorem regionText_write_before {r : Region} (before : r.last < first) :
    (a.write first last new).regionText r = a.regionText r := by
  rw [regionText, regionText, take_write order inside new before]

theorem regionText_write_behind {r : Region} (behind : last < r.first) :
    (a.write first last new).regionText r = a.regionText r := by
  rw [regionText, regionText, List.drop_take, List.drop_take,
    drop_write order inside new behind]

end Write

theorem position_natCast {count : Nat} (k : Nat) (inside : k < count) :
    position? count (k : Int) = some k := by
  have low : ¬ (k : Int) < 0 := by omega
  rw [position?, if_neg low, if_pos (by omega), Int.toNat_natCast]

/-- Erasing from one slot to a later one, whatever way the slots are numbered. -/
theorem erase?_natCast {a : Arena} {first last : Nat} (order : first ≤ last)
    (inside : last < a.slots.length) :
    a.erase? first last = some (a.erase first last) := by
  have stop : position? (a.slots.length + 1) ((last : Int) + 1) = some (last + 1) := by
    exact_mod_cast position_natCast (last + 1) (by omega)
  have start : position? (a.slots.length + 1) (first : Int) = some first :=
    position_natCast first (by omega)
  have head : position? a.slots.length (first : Int) = some first :=
    position_natCast first (by omega)
  have rest : (numbersAfter first last).filterMap (position? a.slots.length) =
      (List.range (last - first)).map (first + 1 + ·) := by
    have count : ((last : Int) - first).toNat = last - first := by omega
    rw [numbersAfter, count, List.filterMap_map, ← List.filterMap_eq_map]
    apply List.filterMap_congr
    intro k hk
    have small := List.mem_range.mp hk
    exact_mod_cast position_natCast (first + 1 + k) (by omega)
  have emptied (k : Nat) : k ∈ first :: (List.range (last - first)).map (first + 1 + ·) ↔
      k = first ∨ first < k ∧ k ≤ last := by
    simp only [List.mem_cons, List.mem_map, List.mem_range]
    constructor
    · rintro (rfl | ⟨j, hj, rfl⟩)
      · exact .inl rfl
      · omega
    · rintro (rfl | ⟨low, high⟩)
      · exact .inl rfl
      · exact .inr ⟨k - (first + 1), by omega, by omega⟩
  simp only [erase?, stop, start, head, rest, Option.bind_eq_bind, Option.bind_some, emptied,
    erase, write, Option.pure_def, Int.ofNat_le]
  congr 4
  funext k s
  by_cases same : k = first
  · rw [if_pos (.inl same), if_pos same]
  · rw [if_neg same]
    exact ite_congr (by simp [same]) (fun _ => rfl) fun _ => rfl

/-- In the arena of a text a slot begins where the text is cut. -/
theorem offset_fresh {t : Text} {p : Nat} (h : p ∈ cuts t (Span.spans t)) (inside : p ≤ t.length) :
    (fresh t).offset ((cuts t (Span.spans t)).idxOf p) = p := by
  have reached := List.idxOf_lt_length_of_mem h
  obtain ⟨rest, start⟩ := cuts_start t
  have front := slotsBetween_text (t := t) (cuts_sorted t) (Nat.zero_le _) reached
  have zero : (cuts t (Span.spans t))[0] = 0 := by simp only [start, List.getElem_cons_zero]
  rw [List.drop_zero, zero, List.getElem_idxOf reached] at front
  rw [offset_eq, fresh_slots, front, Text.slice, List.drop_zero, List.length_take,
    Nat.min_eq_left inside]

theorem ofText_eq_ok {t : Text} {a : Arena} :
    Arena.ofText t = .ok a ↔ Balanced t ∧ a = fresh t := by
  rw [Arena.ofText]
  cases scanned : Span.scan t with
  | error fault =>
    constructor
    · intro read
      cases read
    · rintro ⟨balanced, -⟩
      rw [balanced.scan_eq] at scanned
      cases scanned
  | ok found =>
    obtain ⟨balanced, rfl⟩ := scan_eq_ok.mp scanned
    rw [Except.map, Except.ok.injEq, eq_comm]
    exact (and_iff_right balanced).symm

theorem regions_fresh {t : Text} (h : Balanced t) :
    (fresh t).regions.map (fun r =>
      ((fresh t).start r, (fresh t).stop r, (fresh t).regionText r)) =
        (Span.spans t).map fun s => (s.start, s.stop, s.text t) := by
  apply List.ext_getElem
  · simp [fresh_regions]
  · intro i hi _
    have inside : i < (Span.spans t).length := by simpa [fresh_regions] using hi
    have member : (Span.spans t)[i] ∈ Span.spans t := List.getElem_mem inside
    have within := h.ordered.within _ member
    have first := start_mem_cuts h member
    have last := stop_mem_cuts h member
    have order := idxOf_lt_idxOf (cuts_sorted t) first last within.1
    have behind : (cuts t (Span.spans t)).idxOf (Span.spans t)[i].stop - 1 + 1 =
        (cuts t (Span.spans t)).idxOf (Span.spans t)[i].stop := by omega
    simp only [List.getElem_map, fresh_regions, List.getElem_mapIdx, regionText_regionOf h member,
      start, stop]
    simp only [regionOf, behind]
    rw [offset_fresh first (by omega), offset_fresh last within.2]

theorem within_fresh {t : Text} (h : Balanced t) : (fresh t).Within := by
  intro r hr
  rw [fresh_regions] at hr
  obtain ⟨i, inside, rfl⟩ := List.mem_mapIdx.mp hr
  exact regionOf_bounds h (List.getElem_mem inside) i

end Arena

namespace Buffer

theorem getElem?_sumsFrom (start : Nat) (slots : List Slot) {k : Nat} (inside : k ≤ slots.length) :
    (sumsFrom start slots)[k]? = some (start + Arena.totalLength (slots.take k)) := by
  induction slots generalizing start k with
  | nil =>
    obtain rfl : k = 0 := by simpa using inside
    rfl
  | cons s rest ih =>
    cases k with
    | zero => rfl
    | succ k =>
      have next := ih (start + s.text.length) (Nat.le_of_succ_le_succ inside)
      rw [sumsFrom, List.getElem?_cons_succ, next, List.take_succ_cons, Arena.totalLength,
        Nat.add_assoc]

theorem sumsFrom_eq_scanl (start : Nat) (slots : List Slot) :
    sumsFrom start slots = slots.scanl (fun sum s => sum + s.text.length) start := by
  induction slots generalizing start with
  | nil => rfl
  | cons s rest ih => rw [sumsFrom, ih, List.scanl_cons]

/-- Whether the offsets that a buffer keeps are those of its slots. -/
def Fresh (b : Buffer) : Prop :=
  ∀ sums ∈ b.kept, sums = sumsFrom 0 b.arena.slots

theorem fresh_ofArena (a : Arena) : (ofArena a).Fresh := by
  intro sums kept
  cases kept

/-- The buffers that come from one by questions for offsets and edits in any order. -/
inductive Edited (b₀ : Buffer) : Buffer → Prop where
  | start : Edited b₀ b₀
  | asked {b : Buffer} : Edited b₀ b → Edited b₀ b.offsets.2
  | replaced {b : Buffer} {r : Region} (new : Text) : Edited b₀ b → r ∈ b.arena.regions →
      Edited b₀ (b.replace r new).2
  | erased {b b' : Buffer} {first last : Nat} {removed : Int} : Edited b₀ b → first ≤ last →
      last < b.arena.slots.length → b.erase? first last = some (removed, b') → Edited b₀ b'

/-- Whether an edit with a given change of length put `new` in the place of the text from slot
`first` to slot `last`, and moved or kept each region that lies outside. -/
structure Spliced (b : Buffer) (first last : Nat) (new : Text) (change : Int) (b' : Buffer) :
    Prop where
  text : ∃ p q, b.offsets.1[first]? = some p ∧ b.offsets.1[last + 1]? = some q ∧
    b'.text = b.text.take p ++ new ++ b.text.drop q ∧ change = new.length - ((q : Int) - p)
  length : (b'.text.length : Int) = b.text.length + change
  regions : b'.arena.regions.map (fun r => { r with void := false }) =
    b.arena.regions.map fun r => { r with void := false }
  before : ∀ r ∈ b.arena.regions, r.last < first →
    b'.arena.regionText r = b.arena.regionText r ∧ (b'.start r).1 = (b.start r).1
  behind : ∀ r ∈ b.arena.regions, last < r.first →
    b'.arena.regionText r = b.arena.regionText r ∧ ((b'.start r).1 : Int) = (b.start r).1 + change

section Fresh

variable {b : Buffer} (fresh : b.Fresh)
include fresh

theorem Fresh.offsets_eq : b.offsets.1 = sumsFrom 0 b.arena.slots := by
  rw [offsets]
  split
  · exact fresh _ ‹_›
  · rfl

theorem Fresh.arena_offsets : b.offsets.2.arena = b.arena ∧ b.offsets.2.Fresh := by
  rw [offsets]
  split
  · exact ⟨rfl, fresh⟩
  · refine ⟨rfl, fun sums kept => ?_⟩
    cases kept
    rfl

theorem Fresh.getElem?_offsets {k : Nat} (inside : k ≤ b.arena.slots.length) :
    b.offsets.1[k]? = some (b.arena.offset k) := by
  rw [fresh.offsets_eq, getElem?_sumsFrom 0 _ inside, Nat.zero_add, Arena.offset]

theorem Fresh.start_eq {r : Region} (inside : r.first ≤ b.arena.slots.length) :
    (b.start r).1 = b.arena.start r := by
  have edge : b.offsets.1[r.first]? = some (b.arena.offset r.first) := fresh.getElem?_offsets inside
  rw [Buffer.start_eq, edge, Option.getD_some, Arena.start]

theorem Fresh.stop_eq {r : Region} (inside : r.last < b.arena.slots.length) :
    (b.stop r).1 = b.arena.stop r := by
  have edge : b.offsets.1[r.last + 1]? = some (b.arena.offset (r.last + 1)) :=
    fresh.getElem?_offsets inside
  rw [Buffer.stop_eq, edge, Option.getD_some, Arena.stop]

theorem Fresh.length_eq : b.length.1 = b.text.length := by
  have count : b.offsets.1.length - 1 = b.arena.slots.length := by
    rw [fresh.offsets_eq, sumsFrom_eq_scanl, List.length_scanl, Nat.add_sub_cancel]
  have edge : b.offsets.1[b.arena.slots.length]? = some (b.arena.offset b.arena.slots.length) :=
    fresh.getElem?_offsets (Nat.le_refl _)
  rw [Buffer.length_eq, List.getLast?_eq_getElem?, count, edge, Option.getD_some, Arena.offset_eq,
    List.take_length, text, Arena.text]

theorem Fresh.replace_eq {r : Region} (order : r.first ≤ r.last)
    (inside : r.last < b.arena.slots.length) (new : Text) :
    b.replace r new =
      ((new.length : Int) - ((b.arena.offset (r.last + 1) : Int) - b.arena.offset r.first),
        ofArena (b.arena.write r.first r.last new)) := by
  obtain ⟨same, fresh'⟩ := fresh.arena_offsets
  have start : (b.offsets.2.start r).1 = b.arena.start r := by
    rw [← same]
    exact fresh'.start_eq (by rw [same]; omega)
  rw [Buffer.replace_eq, fresh.stop_eq inside, start, fresh'.arena_offsets.1, same, Arena.stop,
    Arena.start]

theorem Fresh.erase?_eq {first last : Nat} (order : first ≤ last)
    (inside : last < b.arena.slots.length) :
    b.erase? first last =
      some ((b.arena.offset (last + 1) : Int) - b.arena.offset first,
        ofArena (b.arena.write first last [])) := by
  have count : b.offsets.1.length = b.arena.slots.length + 1 := by
    rw [fresh.offsets_eq, sumsFrom_eq_scanl, List.length_scanl]
  have stop : Arena.position? b.offsets.1.length ((last : Int) + 1) = some (last + 1) := by
    exact_mod_cast Arena.position_natCast (last + 1) (by omega)
  have start : Arena.position? b.offsets.1.length (first : Int) = some first :=
    Arena.position_natCast first (by omega)
  have low : b.offsets.1[first]? = some (b.arena.offset first) :=
    fresh.getElem?_offsets (by omega)
  have high : b.offsets.1[last + 1]? = some (b.arena.offset (last + 1)) :=
    fresh.getElem?_offsets inside
  have erased := Arena.erase?_natCast order inside
  simp only [erase?, stop, start, low, high, fresh.arena_offsets.1, erased, Option.bind_eq_bind,
    Option.bind_some, Option.pure_def, Option.getD_some, Arena.erase]

theorem Fresh.spliced {first last : Nat} (order : first ≤ last)
    (inside : last < b.arena.slots.length) (within : b.arena.Within) (new : Text) :
    Spliced b first last new
      ((new.length : Int) - ((b.arena.offset (last + 1) : Int) - b.arena.offset first))
      (ofArena (b.arena.write first last new)) := by
  have fresh' := fresh_ofArena (b.arena.write first last new)
  have kept : (ofArena (b.arena.write first last new)).arena.slots.length = b.arena.slots.length :=
    Arena.slots_length_write _ _ _ _
  constructor
  · exact ⟨_, _, fresh.getElem?_offsets (by omega), fresh.getElem?_offsets inside,
      Arena.text_write order inside new, rfl⟩
  · have whole := Arena.offset_write_behind order inside new inside
    rw [Arena.offset_eq, Arena.offset_eq b.arena b.arena.slots.length, List.take_length,
      ← Arena.slots_length_write b.arena first last new, List.take_length] at whole
    simp only [text, ofArena, Arena.text]
    omega
  · simp only [ofArena, Arena.write, List.map_map]
    rfl
  · intro r hr before
    have bounds := within r hr
    refine ⟨Arena.regionText_write_before order inside new before, ?_⟩
    rw [fresh'.start_eq (by omega), fresh.start_eq (by omega)]
    exact Arena.offset_write_before order inside new (by omega)
  · intro r hr behind
    have bounds := within r hr
    refine ⟨Arena.regionText_write_behind order inside new behind, ?_⟩
    rw [fresh'.start_eq (by omega), fresh.start_eq (by omega)]
    have moved := Arena.offset_write_behind order inside new behind
    simp only [Arena.start, ofArena]
    omega

end Fresh

/-- What holds of a buffer after any questions and edits: the offsets it keeps are right, and its
regions lie in its slots. -/
theorem Edited.sound {b₀ b : Buffer} (edited : Edited b₀ b) (fresh : b₀.Fresh)
    (within : b₀.arena.Within) : b.Fresh ∧ b.arena.Within := by
  have write {a : Arena} (h : a.Within) (first last : Nat) (new : Text) :
      (ofArena (a.write first last new)).Fresh ∧ (a.write first last new).Within := by
    refine ⟨fresh_ofArena _, fun r hr => ?_⟩
    obtain ⟨q, hq, rfl⟩ := List.mem_map.mp hr
    rw [Arena.slots_length_write]
    exact h q hq
  induction edited with
  | start => exact ⟨fresh, within⟩
  | asked _ ih =>
    obtain ⟨same, fresh'⟩ := ih.1.arena_offsets
    exact ⟨fresh', same ▸ ih.2⟩
  | replaced new _ member ih =>
    have bounds := ih.2 _ member
    rw [ih.1.replace_eq bounds.1 bounds.2]
    exact write ih.2 _ _ _
  | erased _ order inside done ih =>
    rw [ih.1.erase?_eq order inside] at done
    cases done
    exact write ih.2 _ _ _

theorem ofText_eq_ok {t : Text} {b : Buffer} :
    ofText t = .ok b ↔ Balanced t ∧ b = ofArena (.fresh t) := by
  rw [ofText]
  constructor
  · intro read
    cases scanned : Arena.ofText t with
    | error fault =>
      rw [scanned] at read
      cases read
    | ok a =>
      rw [scanned] at read
      cases read
      obtain ⟨balanced, rfl⟩ := Arena.ofText_eq_ok.mp scanned
      exact ⟨balanced, rfl⟩
  · rintro ⟨balanced, rfl⟩
    rw [Arena.ofText_eq_ok.mpr ⟨balanced, rfl⟩, Except.map]

/-- A buffer is the template with its spans at first. Whatever was asked and edited since, its
offsets are the sums of its slots, and each further edit is a splice. -/
theorem ofText_splices {t : Text} {b₀ : Buffer} (read : ofText t = .ok b₀) :
    (b₀.text = t ∧ ∃ found, Span.scan t = .ok found ∧
      b₀.arena.regions.map (fun r =>
        ((b₀.start r).1, (b₀.stop r).1, b₀.arena.regionText r)) =
          found.map fun s => (s.start, s.stop, s.text t)) ∧
    ∀ b, Edited b₀ b →
      b.offsets.1 = (b.arena.slots.map fun s => s.text.length).scanl (· + ·) 0 ∧
      b.length.1 = b.text.length ∧
      (∀ r ∈ b.arena.regions, ∀ new,
        Spliced b r.first r.last new (b.replace r new).1 (b.replace r new).2) ∧
      ∀ first last : Nat, first ≤ last → last < b.arena.slots.length →
        ∃ removed b', b.erase? first last = some (removed, b') ∧
          Spliced b first last [] (-removed) b' := by
  obtain ⟨balanced, rfl⟩ := ofText_eq_ok.mp read
  have within := Arena.within_fresh balanced
  constructor
  · refine ⟨Arena.text_fresh t, _, balanced.scan_eq, ?_⟩
    rw [← Arena.regions_fresh balanced]
    apply List.map_congr_left
    intro r hr
    have bounds := within r hr
    have fresh := fresh_ofArena (Arena.fresh t)
    rw [fresh.start_eq (by change r.first ≤ (Arena.fresh t).slots.length; omega),
      fresh.stop_eq bounds.2]
    rfl
  · intro b edited
    obtain ⟨fresh, within⟩ := edited.sound (fresh_ofArena _) within
    refine ⟨?_, fresh.length_eq, fun r hr new => ?_, fun first last order inside => ?_⟩
    · rw [fresh.offsets_eq, sumsFrom_eq_scanl, List.scanl_map]
    · have bounds := within r hr
      rw [fresh.replace_eq bounds.1 bounds.2]
      exact fresh.spliced bounds.1 bounds.2 within new
    · refine ⟨_, _, fresh.erase?_eq order inside, ?_⟩
      have change : ((([] : Text).length : Int) -
          ((b.arena.offset (last + 1) : Int) - b.arena.offset first)) =
            -((b.arena.offset (last + 1) : Int) - b.arena.offset first) := Int.zero_sub _
      rw [← change]
      exact fresh.spliced order inside within []

/-- An inner span is replaced, then the slots of the outer one are erased. -/
theorem ofText_splices_nested :
    let t := "a\x7bb\x7bc\x7dd\x7d".toList
    let b₀ := ofArena (Arena.fresh t)
    let inner : Region := ⟨1, 2, 2, some 0, 1, false⟩
    let b := (b₀.replace inner "xyz!".toList).2
    ofText t = .ok b₀ ∧ b.text = "a\x7bbxyz!d\x7d".toList ∧
      ∃ removed b', b.erase? 1 3 = some (removed, b') ∧ Spliced b 1 3 [] (-removed) b' := by
  intro t b₀ inner b
  have read : ofText t = .ok b₀ := rfl
  have edited : Edited b₀ b := .replaced _ .start (by decide)
  exact ⟨read, rfl, ((ofText_splices read).2 b edited).2.2.2 1 3 (by decide) (by decide)⟩

end Buffer

end ChatCommands
