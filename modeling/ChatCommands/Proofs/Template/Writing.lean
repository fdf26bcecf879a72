import ChatCommands.Proofs.Template.Pairing

/-!
Writes to the middle of an arena.

A write to all slots of one part leaves the parts around it as they are, and voids the regions of
the part itself.
-/

namespace ChatCommands

open Piece

namespace Arena

/-- Whether every region lies in the slots. -/
def Within (a : Arena) : Prop :=
  ∀ r ∈ a.regions, r.first ≤ r.last ∧ r.last < a.slots.length

def place (a : Arena) : Place :=
  ⟨a.slots.length, a.regions.length⟩

/-- An arena whose whole text became `new`. -/
def blank (new : Text) (a : Arena) : Arena :=
  ⟨⟨new, true⟩ :: List.replicate (a.slots.length - 1) ⟨[], true⟩,
    a.regions.map fun r => { r with void := true }⟩

theorem within_empty : empty.Within := by
  simp [Within, empty]

theorem Within.append {a b : Arena} (ha : a.Within) (hb : b.Within) : (a ++ b).Within := by
  intro r hr
  rw [regions_append, List.mem_append, List.mem_map] at hr
  rw [slots_append, List.length_append]
  rcases hr with hr | ⟨q, hq, rfl⟩
  · have := ha r hr
    omega
  · have := hb q hq
    simp only [Region.shift]
    omega

theorem render_append (a b : Arena) : (a ++ b).render = a.render ++ b.render := by
  simp [render]

theorem isVoid_middle (x y z : Arena) {i : Nat} {r : Region} (h : y.regions[i]? = some r) :
    (x ++ (y ++ z)).isVoid (i + x.regions.length) = r.void := by
  have inside : i < y.regions.length := (List.getElem?_eq_some_iff.mp h).1
  rw [isVoid, regions_append, List.getElem?_append_right (Nat.le_add_left _ _),
    Nat.add_sub_cancel_right, List.getElem?_map, regions_append, List.getElem?_append_left inside, h]
  rfl

theorem mapIdx_eq_self {α : Type} {f : Nat → α → α} {xs : List α}
    (h : ∀ k (hk : k < xs.length), f k xs[k] = xs[k]) : xs.mapIdx f = xs := by
  apply List.ext_getElem
  · simp
  · intro k _ hk
    rw [List.getElem_mapIdx, h k hk]

theorem slots_length_blank {a : Arena} (positive : 0 < a.slots.length) (new : Text) :
    (a.blank new).slots.length = a.slots.length := by
  simp only [blank, List.length_cons, List.length_replicate]
  omega

theorem slots_write_middle {x y : Arena} (positive : 0 < y.slots.length) (z : Arena) (new : Text) :
    ((x ++ (y ++ z)).write x.slots.length (x.slots.length + (y.slots.length - 1)) new).slots =
      (x ++ (y.blank new ++ z)).slots := by
  simp only [write, slots_append, List.mapIdx_append]
  congr 1
  · apply mapIdx_eq_self
    intro k hk
    rw [if_neg (by omega), if_neg (by omega)]
  · congr 1
    · obtain ⟨first, rest, cons⟩ := List.exists_cons_of_length_pos positive
      simp only [blank, cons, List.mapIdx_cons, List.length_cons, Nat.zero_add, if_true,
        Nat.add_sub_cancel]
      congr 1
      rw [List.eq_replicate_iff]
      refine ⟨by simp, fun s hs => ?_⟩
      obtain ⟨k, hk, rfl⟩ := List.mem_mapIdx.mp hs
      rw [if_neg (by omega), if_pos (by omega)]
    · apply mapIdx_eq_self
      intro k hk
      rw [if_neg (by omega), if_neg (by omega)]

theorem regions_write_middle {x y : Arena} (hx : x.Within) (hy : y.Within)
    (positive : 0 < y.slots.length) (z : Arena) (new : Text) :
    ((x ++ (y ++ z)).write x.slots.length (x.slots.length + (y.slots.length - 1)) new).regions =
      (x ++ (y.blank new ++ z)).regions := by
  have length := slots_length_blank positive new
  have keeps (r : Region) (outside : ¬ (x.slots.length ≤ r.first ∧
      r.last ≤ x.slots.length + (y.slots.length - 1))) :
      { r with void := r.void || decide (x.slots.length ≤ r.first ∧
        r.last ≤ x.slots.length + (y.slots.length - 1)) } = r := by
    rw [decide_eq_false outside, Bool.or_false]
  have voids (r : Region) (inside : x.slots.length ≤ r.first ∧
      r.last ≤ x.slots.length + (y.slots.length - 1)) :
      { r with void := r.void || decide (x.slots.length ≤ r.first ∧
        r.last ≤ x.slots.length + (y.slots.length - 1)) } = { r with void := true } := by
    rw [decide_eq_true inside, Bool.or_true]
  simp only [write, regions_append, List.map_append, List.map_map, length]
  congr 1
  · rw [List.map_congr_left (g := id), List.map_id]
    intro r hr
    have bounds := hx r hr
    exact keeps r (by omega)
  · congr 1
    · rw [blank, List.map_map]
      apply List.map_congr_left
      intro r hr
      have bounds := hy r hr
      refine voids (r.shift _ _) ?_
      simp only [Region.shift]
      omega
    · rw [blank, List.length_map]
      apply List.map_congr_left
      intro r _
      refine keeps ((r.shift _ _).shift _ _) ?_
      simp only [Region.shift]
      omega

theorem write_middle {x y : Arena} (hx : x.Within) (hy : y.Within) (positive : 0 < y.slots.length)
    (z : Arena) (new : Text) :
    (x ++ (y ++ z)).write x.slots.length (x.slots.length + (y.slots.length - 1)) new =
      x ++ (y.blank new ++ z) :=
  congrArg₂ Arena.mk (slots_write_middle positive z new)
    (regions_write_middle hx hy positive z new)

theorem within_blank {a : Arena} (h : a.Within) (positive : 0 < a.slots.length) (new : Text) :
    (a.blank new).Within := by
  intro r hr
  obtain ⟨q, hq, rfl⟩ := List.mem_map.mp hr
  rw [slots_length_blank positive]
  exact h q hq

theorem render_blank (a : Arena) (new : Text) : (a.blank new).render = new := by
  simp [blank, render]

/-- What became of an arena: it still has its slots and regions, and shows a text. -/
structure Settled (a b : Arena) (shown : Text) : Prop where
  slots : a.slots.length = b.slots.length
  regions : a.regions.length = b.regions.length
  within : a.Within
  render : a.render = shown

/-- What became of an arena whose text was erased. -/
structure Erased (a b : Arena) : Prop extends Settled a b [] where
  void : ∀ r ∈ a.regions, r.void = true

theorem Settled.empty : Settled empty empty [] :=
  ⟨rfl, rfl, within_empty, rfl⟩

theorem Settled.append {a a' b b' : Arena} {s t : Text} (h : Settled a b s)
    (h' : Settled a' b' t) : Settled (a ++ a') (b ++ b') (s ++ t) := by
  constructor
  · simp [h.slots, h'.slots]
  · simp [h.regions, h'.regions]
  · exact h.within.append h'.within
  · rw [render_append, h.render, h'.render]

theorem Settled.blank {a : Arena} (h : a.Within) (positive : 0 < a.slots.length) (new : Text) :
    Settled (a.blank new) a new :=
  ⟨slots_length_blank positive new, by simp [Arena.blank], within_blank h positive new,
    render_blank a new⟩

theorem Erased.blank {a : Arena} (h : a.Within) (positive : 0 < a.slots.length) :
    Erased (a.blank []) a :=
  ⟨.blank h positive [], by simp [Arena.blank]⟩

theorem Erased.empty : Erased empty empty :=
  ⟨.empty, by simp [Arena.empty]⟩

theorem Settled.place_append {a : Arena} {ps : List Piece} {s : Text}
    (h : Settled a (layout ps) s) (x : Arena) : (x ++ a).place = x.place.after ps := by
  simp [Arena.place, Place.after, h.slots, h.regions]

end Arena

end ChatCommands
