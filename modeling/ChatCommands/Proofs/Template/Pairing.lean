import ChatCommands.Proofs.Template.Script
import Mathlib.Data.List.Nodup
import Mathlib.Data.List.Perm.Subperm

/-!
The blocks that are found in the arena of a template, and those of its script.
-/

namespace ChatCommands

namespace Arena

theorem regionText_append_left {a : Arena} {r : Region} (inside : r.last < a.slots.length)
    (b : Arena) : (a ++ b).regionText r = a.regionText r := by
  rw [regionText, regionText, slots_append, List.take_append_of_le_length inside]

theorem regionText_append_right (a b : Arena) (n : Nat) (r : Region) :
    (a ++ b).regionText (r.shift a.slots.length n) = b.regionText r := by
  have stop : r.last + a.slots.length + 1 = a.slots.length + (r.last + 1) := by omega
  simp only [regionText, slots_append, Region.shift]
  rw [stop, Nat.add_comm r.first, List.take_length_add_append, List.drop_length_add_append]

theorem Tidy.live {a : Arena} (h : a.Tidy) : a.live = a.regions := by
  rw [Arena.live, List.filter_eq_self]
  intro r hr
  simp [h.unwritten r hr]

theorem Tidy.siblings_append {a b : Arena} (ha : a.Tidy) (hb : b.Tidy) :
    Block.siblings (a ++ b) none = Block.siblings a none ++
      (Block.siblings b none).map fun m => (m.1.shift a.slots.length a.regions.length, m.2) := by
  have first : ∀ r ∈ a.regions, (a ++ b).regionText r = a.regionText r :=
    fun r hr => regionText_append_left (ha.bounds r hr).2 b
  simp only [Block.siblings, Block.markers, (ha.append hb).live, ha.live, hb.live, regions_append,
    List.filterMap_append, List.filter_append]
  congr 1
  · congr 1
    apply List.filterMap_congr
    intro r hr
    rw [first r hr]
  · simp only [List.filterMap_map, List.filter_filterMap, List.map_filterMap]
    apply List.filterMap_congr
    intro r _
    rw [Function.comp_apply, regionText_append_right]
    cases Marker.ofKeyword? (Instruction.decode (b.regionText r)).keyword with
    | none => rfl
    | some m => cases hp : r.parent <;> simp [Region.shift, hp, Option.filter_some]

end Arena

open Piece

/-- How many slots and regions stand before a piece. -/
structure Place where
  slot : Nat
  region : Nat

namespace Place

def after (here : Place) (ps : List Piece) : Place :=
  ⟨here.slot + (layout ps).slots.length, here.region + (layout ps).regions.length⟩

def regions (here : Place) (ps : List Piece) : List Region :=
  (layout ps).regions.map (Region.shift here.slot here.region)

def head (here : Place) (p : Piece) : Region :=
  ⟨here.region, here.slot, here.slot + ((layout [p]).slots.length - 1), none, 0, false⟩

def markers (here : Place) : List Piece → List (Region × Marker)
  | [] => []
  | p :: ps => (p.marker?.map (here.head p, ·)).toList ++ (here.after [p]).markers ps

variable (here : Place)

@[simp] theorem after_after (ps qs : List Piece) :
    (here.after ps).after qs = here.after (ps ++ qs) := by
  simp [after, layout_append, Nat.add_assoc]

theorem regions_append (ps qs : List Piece) :
    here.regions (ps ++ qs) = here.regions ps ++ (here.after ps).regions qs := by
  simp [regions, after, layout_append, Function.comp_def, Region.shift_shift]

theorem markers_append (ps qs : List Piece) :
    here.markers (ps ++ qs) = here.markers ps ++ (here.after ps).markers qs := by
  induction ps generalizing here with
  | nil => rfl
  | cons p ps ih => simp [markers, ih]

theorem markers_cons {p : Piece} {kind : Marker} (h : p.marker? = some kind) (ps : List Piece) :
    here.markers (p :: ps) = (here.head p, kind) :: (here.after [p]).markers ps := by
  rw [markers, h]
  rfl

theorem shift_head (p : Piece) :
    (head ⟨0, 0⟩ p).shift here.slot here.region = here.head p := by
  simp [head, Region.shift, Nat.add_comm]

theorem shift_markers (there : Place) (ps : List Piece) :
    (there.markers ps).map (fun m => (m.1.shift here.slot here.region, m.2)) =
      markers ⟨here.slot + there.slot, here.region + there.region⟩ ps := by
  induction ps generalizing there with
  | nil => rfl
  | cons p ps ih =>
    have head : (there.head p).shift here.slot here.region =
        Place.head ⟨here.slot + there.slot, here.region + there.region⟩ p := by
      simp [Place.head, Region.shift, Nat.add_comm, Nat.add_assoc]
    have next : (Place.mk (here.slot + there.slot) (here.region + there.region)).after [p] =
        ⟨here.slot + (there.after [p]).slot, here.region + (there.after [p]).region⟩ := by
      simp [after, Nat.add_assoc]
    rw [markers, markers, List.map_append, ih, next]
    cases p.marker? <;> simp [head]

end Place

namespace Piece

theorem Valid.layout_tidy {p : Piece} (h : p.Valid) : (layout [p]).Tidy :=
  tidy_layout (by simpa using h)

theorem layout_single (p : Piece) : layout [p] = .fresh p.text :=
  Arena.append_empty _

theorem Valid.siblings {p : Piece} (h : p.Valid) :
    Block.siblings (layout [p]) none = Place.markers ⟨0, 0⟩ [p] := by
  rw [layout_single]
  cases p with
  | plain u =>
    rw [text, Arena.fresh_flat h.1 h.2]
    rfl
  | span inner =>
    obtain ⟨positive, nested, regions, deep⟩ := Arena.fresh_span h
    have tidy := Arena.tidy_fresh (Closed.span h).balanced
    have whole : (Arena.fresh (Text.braced inner)).regionText
        ⟨0, 0, (Arena.fresh (Text.braced inner)).slots.length - 1, none, 0, false⟩ =
          Text.braced inner := by
      have all : (Arena.fresh (Text.braced inner)).slots.length - 1 + 1 =
          (Arena.fresh (Text.braced inner)).slots.length := by omega
      rw [Arena.regionText, all, List.take_length, List.drop_zero]
      exact Arena.text_fresh _
    have inside : (nested.filterMap fun r =>
        (Marker.ofKeyword? (Instruction.decode
          ((Arena.fresh (Text.braced inner)).regionText r)).keyword).map (r, ·)).filter
            (fun m => m.1.parent == none) = [] := by
      rw [List.filter_eq_nil_iff]
      intro m hm
      obtain ⟨r, hr, found⟩ := List.mem_filterMap.mp hm
      obtain ⟨kind, _, rfl⟩ := Option.map_eq_some_iff.mp found
      simpa using deep r hr
    rw [text, Block.siblings, Block.markers, tidy.live, regions, List.filterMap_cons, whole]
    simp only [Place.markers, marker?, markerOf, Place.head, layout_single, text]
    cases Marker.ofKeyword? (Instruction.decode (Text.braced inner)).keyword with
    | none => simpa using inside
    | some kind => simpa using inside

theorem siblings_layout {ps : List Piece} (valid : ∀ p ∈ ps, p.Valid) :
    Block.siblings (layout ps) none = Place.markers ⟨0, 0⟩ ps := by
  induction ps with
  | nil => rfl
  | cons p ps ih =>
    obtain ⟨hp, hps⟩ := List.forall_mem_cons.mp valid
    have cons : p :: ps = [p] ++ ps := rfl
    rw [cons, layout_append, hp.layout_tidy.siblings_append (tidy_layout hps), hp.siblings, ih hps,
      Place.markers_append, Place.shift_markers ⟨_, _⟩ ⟨0, 0⟩]
    simp [Place.after]

end Piece

namespace Block

theorem ofSiblings_openers {a : Arena} {found : List (Region × Marker)}
    {pending : List (Region × Option Region)} {blocks : List Block}
    (h : ofSiblings a pending found = .ok blocks) :
    (blocks.map opener).Subperm (pending.map Prod.fst ++ found.map Prod.fst) := by
  induction found generalizing pending blocks with
  | nil =>
    cases pending with
    | nil =>
      cases h
      exact List.nil_subperm
    | cons p outer => simp [ofSiblings] at h
  | cons m rest ih =>
    obtain ⟨r, kind⟩ := m
    have skip (front : List Region) :
        (front ++ rest.map Prod.fst).Subperm (front ++ r :: rest.map Prod.fst) :=
      ((List.sublist_cons_self r _).append_left front).subperm
    cases kind with
    | opens => exact (ih h).trans List.perm_middle.symm.subperm
    | divides =>
      rcases pending with _ | ⟨⟨opener, _ | divider⟩, outer⟩
      · simp [ofSiblings] at h
      · rw [ofSiblings] at h
        exact (ih h).trans (skip (opener :: outer.map Prod.fst))
      · simp [ofSiblings] at h
    | closes =>
      cases pending with
      | nil => simp [ofSiblings] at h
      | cons p outer =>
        rw [ofSiblings] at h
        cases others : ofSiblings a outer rest with
        | error e => simp [others, bind, Except.bind] at h
        | ok more =>
          simp only [others, bind, Except.bind, pure, Except.pure, Except.ok.injEq] at h
          subst h
          exact (List.subperm_cons p.1).mpr ((ih others).trans (skip (outer.map Prod.fst)))

theorem mem_siblings {a : Arena} {parent : Option Nat} {r : Region}
    (h : r ∈ (siblings a parent).map Prod.fst) : r ∈ a.regions ∧ r.parent = parent := by
  obtain ⟨m, hm, rfl⟩ := List.mem_map.mp h
  obtain ⟨found, same⟩ := List.mem_filter.mp hm
  obtain ⟨r, live, kind⟩ := List.mem_filterMap.mp found
  obtain ⟨_, _, rfl⟩ := Option.map_eq_some_iff.mp kind
  exact ⟨(List.mem_filter.mp live).1, by simpa using same⟩

theorem markers_pairwise {a : Arena} {R : Region → Region → Prop} (h : a.regions.Pairwise R) :
    (markers a).Pairwise fun m n => R m.1 n.1 := by
  refine List.Pairwise.filterMap _ ?_ (h.filter _)
  intro r q related m hm n hn
  obtain ⟨_, _, rfl⟩ := Option.map_eq_some_iff.mp hm
  obtain ⟨_, _, rfl⟩ := Option.map_eq_some_iff.mp hn
  exact related

theorem markers_distinct {a : Arena} (tidy : a.Tidy) :
    (markers a).Pairwise fun m n => m.1.index ≠ n.1.index := by
  refine markers_pairwise (R := fun r q => r.index ≠ q.index) ?_
  rw [List.pairwise_iff_getElem]
  intro i j hi hj before
  have first := tidy.numbered i _ (List.getElem?_eq_getElem hi)
  have second := tidy.numbered j _ (List.getElem?_eq_getElem hj)
  omega

theorem siblings_nodup {a : Arena} (tidy : a.Tidy) (parent : Option Nat) :
    (((siblings a parent).map Prod.fst).map Region.index).Nodup := by
  rw [List.map_map, List.Nodup, List.pairwise_map]
  exact (markers_distinct tidy).filter _

theorem find_of_mem {a : Arena} (tidy : a.Tidy) {all group : List Block} {parent : Option Nat}
    (h : matchAll a = .ok all) (hg : ofSiblings a [] (siblings a parent) = .ok group) {b : Block}
    (member : b ∈ group) : all.find? (fun x => x.opener.index == b.opener.index) = some b := by
  have opener {parent : Option Nat} {group : List Block} {b : Block}
      (hg : ofSiblings a [] (siblings a parent) = .ok group) (member : b ∈ group) :
      b.opener ∈ (siblings a parent).map Prod.fst :=
    (ofSiblings_openers hg).subset (List.mem_map_of_mem member)
  rw [matchAll_eq] at h
  cases groups : (parents (markers a)).mapM fun parent => ofSiblings a [] (siblings a parent) with
  | error e => simp [groups, Except.map] at h
  | ok found =>
    simp only [groups, Except.map, Except.ok.injEq] at h
    subst h
    have here : b ∈ found.flatten := by
      obtain ⟨m, hm, _⟩ := List.mem_map.mp (opener hg member)
      obtain ⟨marker, same⟩ := List.mem_filter.mp hm
      have parent := mem_parents.mpr ⟨m, marker, by simpa using same⟩
      exact List.mem_flatten.mpr ⟨group, (mem_of_mapM groups group).mpr ⟨_, parent, hg⟩, member⟩
    have only : ∀ x ∈ found.flatten, x.opener.index = b.opener.index → x = b := by
      intro x hx same
      obtain ⟨other, hother, hx⟩ := List.mem_flatten.mp hx
      obtain ⟨parent', _, hg'⟩ := (mem_of_mapM groups other).mp hother
      obtain ⟨region_b, parent_b⟩ := mem_siblings (opener hg member)
      obtain ⟨region_x, parent_x⟩ := mem_siblings (opener hg' hx)
      -- Regions are numbered by their place, so the two blocks have one opener and one group.
      obtain ⟨i, hi⟩ := List.mem_iff_getElem?.mp region_b
      obtain ⟨j, hj⟩ := List.mem_iff_getElem?.mp region_x
      have place : i = j := by rw [← tidy.numbered i _ hi, ← tidy.numbered j _ hj, same]
      have region : x.opener = b.opener := by
        rw [place, hj] at hi
        exact Option.some.inj hi
      rw [← parent_x, region, parent_b, hg] at hg'
      cases hg'
      have nodup : (group.map fun x => x.opener.index).Nodup := by
        obtain ⟨openers, perm, sub⟩ := ofSiblings_openers hg
        have apart := (siblings_nodup tidy parent).sublist (sub.map Region.index)
        rw [(perm.map Region.index).nodup_iff, List.map_map] at apart
        exact apart
      exact List.inj_on_of_nodup_map nodup hx member same
    cases result : found.flatten.find? fun x => x.opener.index == b.opener.index with
    | none =>
      have missing := List.find?_eq_none.mp result b here
      simp at missing
    | some x =>
      have same := List.find?_some result
      rw [only x (List.mem_of_find?_eq_some result) (by simpa using same)]

end Block

namespace Script

/-- The blocks of a script in the order of their closing. -/
def blocks (here : Place) : Script → List Block
  | done => []
  | leaf p next => next.blocks (here.after [p])
  | ifThen opener yes closer next =>
    yes.blocks (here.after [opener]) ++
      ⟨here.head opener, none, (here.after (opener :: yes.items)).head closer⟩ ::
        next.blocks (here.after (opener :: (yes.items ++ [closer])))
  | ifElse opener yes divider no closer next =>
    yes.blocks (here.after [opener]) ++
      (no.blocks (here.after (opener :: (yes.items ++ [divider]))) ++
        ⟨here.head opener, some ((here.after (opener :: yes.items)).head divider),
          (here.after (opener :: (yes.items ++ divider :: no.items))).head closer⟩ ::
            next.blocks (here.after (opener :: (yes.items ++ divider :: (no.items ++ [closer])))))

/-- The markers of a script are paired as the script says. -/
theorem ofSiblings_items {s : Script} (fits : s.Fits) (a : Arena) (here : Place)
    (pending : List (Region × Option Region)) (rest : List (Region × Marker)) :
    Block.ofSiblings a pending (here.markers s.items ++ rest) =
      (Block.ofSiblings a pending rest).map (s.blocks here ++ ·) := by
  induction s generalizing here pending rest with
  | done =>
    cases h : Block.ofSiblings a pending rest <;>
      simp [items, Place.markers, blocks, h, Except.map]
  | leaf p next ih =>
    simp only [items, Place.markers, fits.1, blocks]
    exact ih fits.2 _ _ _
  | ifThen opener yes closer next ih_yes ih =>
    obtain ⟨ho, hy, hc, hn⟩ := fits
    simp only [items, blocks, here.markers_cons ho, Place.markers_append, Place.markers_cons _ hc,
      Place.after_after, List.cons_append, List.nil_append, List.append_assoc]
    rw [Block.ofSiblings, ih_yes hy, Block.ofSiblings, ih hn]
    cases Block.ofSiblings a pending rest <;>
      simp [Except.map, bind, Except.bind, pure, Except.pure]
  | ifElse opener yes divider no closer next ih_yes ih_no ih =>
    obtain ⟨ho, hy, hd, hno, hc, hn⟩ := fits
    simp only [items, blocks, here.markers_cons ho, Place.markers_append, Place.markers_cons _ hd,
      Place.markers_cons _ hc, Place.after_after, List.cons_append, List.nil_append,
      List.append_assoc]
    rw [Block.ofSiblings, ih_yes hy, Block.ofSiblings, ih_no hno, Block.ofSiblings, ih hn]
    cases Block.ofSiblings a pending rest <;>
      simp [Except.map, bind, Except.bind, pure, Except.pure]

theorem Reads.blocks {s : Script} {t : Text} (h : s.Reads t) :
    ∃ found, Block.ofText t = .ok (layout s.items, found) ∧ ∀ b ∈ s.blocks ⟨0, 0⟩,
      found.find? (fun x => x.opener.index == b.opener.index) = some b := by
  obtain ⟨a, found, accepted⟩ := h.accepted
  obtain ⟨_, rfl, matched⟩ := ofText_eq_ok.mp accepted
  have valid := h.separated.valid
  have arena : Arena.fresh t = layout s.items := h.text ▸ h.separated.fresh_textOf
  rw [arena] at matched accepted
  have top : Block.ofSiblings (layout s.items) [] (Block.siblings (layout s.items) none) =
      .ok (s.blocks ⟨0, 0⟩) := by
    have group := ofSiblings_items h.fits (layout s.items) ⟨0, 0⟩ [] []
    rw [List.append_nil] at group
    rw [siblings_layout valid, group]
    simp [Block.ofSiblings, Except.map]
  exact ⟨found, accepted, fun b => Block.find_of_mem (tidy_layout valid) matched top⟩

end Script

end ChatCommands
