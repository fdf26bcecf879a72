import ChatCommands.Proofs.Template.Place
import ChatCommands.Template.Block
import Mathlib.Data.List.Basic

/-!
When the markers of a template pair up.

Whether a group of siblings is accepted depends on the kinds of its markers alone. So a template
is accepted where its braces are balanced and, for each span and for the top level, the kinds of
the markers directly inside are well nested.
-/

namespace ChatCommands

open Span

/-- A template that can be resolved: it is scanned, and its markers pair up. -/
def Accepted (t : Text) : Prop :=
  ∃ a blocks, Block.ofText t = .ok (a, blocks)

/-- The kind of marker that the text of a span is, if it is one. -/
def markerOf (t : Text) : Option Marker :=
  Marker.ofKeyword? (Instruction.decode t).keyword

namespace Marker

/-- Whether markers close the open blocks, of which the innermost comes first and each is given by
whether its `else` has been met, and pair up otherwise. -/
def paired : List Bool → List Marker → Bool
  | pending, [] => pending.isEmpty
  | pending, .opens :: rest => paired (false :: pending) rest
  | false :: outer, .divides :: rest => paired (true :: outer) rest
  | _ :: outer, .closes :: rest => paired outer rest
  | _, _ => false

end Marker

namespace Block

theorem ofSiblings_accepts (a : Arena) (found : List (Region × Marker))
    (pending : List (Region × Option Region)) :
    (∃ blocks, ofSiblings a pending found = .ok blocks) ↔
      Marker.paired (pending.map fun p => p.2.isSome) (found.map Prod.snd) = true := by
  induction found generalizing pending with
  | nil => cases pending <;> simp [ofSiblings, Marker.paired]
  | cons m rest ih =>
    obtain ⟨r, kind⟩ := m
    cases kind with
    | opens =>
      simp only [ofSiblings, List.map_cons, Marker.paired]
      exact ih _
    | divides =>
      rcases pending with _ | ⟨⟨opener, _ | divider⟩, outer⟩
      · simp [ofSiblings, Marker.paired]
      · simp only [ofSiblings, List.map_cons, Marker.paired, Option.isSome_none]
        exact ih _
      · simp [ofSiblings, Marker.paired]
    | closes =>
      rcases pending with _ | ⟨⟨opener, divider⟩, outer⟩
      · simp [ofSiblings, Marker.paired]
      · have step := ih outer
        cases divider <;>
          cases rest : ofSiblings a outer rest <;>
          simp_all [ofSiblings, Marker.paired, bind, Except.bind, pure, Except.pure]

theorem mapM_accepts {α β ε : Type} (f : α → Except ε β) (xs : List α) :
    (∃ ys, xs.mapM f = .ok ys) ↔ ∀ x ∈ xs, ∃ y, f x = .ok y := by
  induction xs with
  | nil => simp [pure, Except.pure]
  | cons x xs ih =>
    rw [List.forall_mem_cons, ← ih, List.mapM_cons]
    cases hx : f x with
    | error e => simp [bind, Except.bind]
    | ok y => cases rest : xs.mapM f <;> simp [bind, Except.bind, pure, Except.pure]

theorem mem_of_mapM {α β ε : Type} {f : α → Except ε β} {xs : List α} {ys : List β}
    (h : xs.mapM f = .ok ys) (y : β) : y ∈ ys ↔ ∃ x ∈ xs, f x = .ok y := by
  induction xs generalizing ys with
  | nil =>
    cases h
    simp
  | cons x xs ih =>
    rw [List.mapM_cons] at h
    cases hx : f x with
    | error e => simp [hx, bind, Except.bind] at h
    | ok first =>
      cases rest : xs.mapM f with
      | error e => simp [hx, rest, bind, Except.bind] at h
      | ok others =>
        simp only [hx, rest, bind, Except.bind, pure, Except.pure, Except.ok.injEq] at h
        subst h
        simp [ih rest, hx, eq_comm]

def siblings (a : Arena) (parent : Option Nat) : List (Region × Marker) :=
  (markers a).filter fun m => m.1.parent == parent

theorem mem_parents {found : List (Region × Marker)} {parent : Option Nat} :
    parent ∈ parents found ↔ ∃ m ∈ found, m.1.parent = parent := by
  simp [parents, List.mem_eraseDups]

theorem matchAll_eq (a : Arena) :
    matchAll a = ((parents (markers a)).mapM fun parent => ofSiblings a [] (siblings a parent)).map
      List.flatten := by
  unfold matchAll siblings
  cases h : (parents (markers a)).mapM fun parent =>
    ofSiblings a [] ((markers a).filter fun m => m.1.parent == parent) <;>
    simp [h, bind, Except.bind, pure, Except.pure, Except.map]

theorem matchAll_accepts (a : Arena) :
    (∃ blocks, matchAll a = .ok blocks) ↔
      ∀ parent, Marker.paired [] ((siblings a parent).map Prod.snd) = true := by
  have groups : (∃ blocks, matchAll a = .ok blocks) ↔
      ∀ parent ∈ parents (markers a), ∃ blocks, ofSiblings a [] (siblings a parent) = .ok blocks := by
    rw [← mapM_accepts, matchAll_eq]
    cases (parents (markers a)).mapM fun parent => ofSiblings a [] (siblings a parent) <;>
      simp [Except.map]
  rw [groups]
  constructor
  · intro h parent
    by_cases member : parent ∈ parents (markers a)
    · exact (ofSiblings_accepts a _ []).mp (h parent member)
    · have none : siblings a parent = [] := by
        rw [siblings, List.filter_eq_nil_iff]
        intro m hm same
        exact member (mem_parents.mpr ⟨m, hm, by simpa using same⟩)
      simp [none, Marker.paired]
  · intro h parent _
    exact (ofSiblings_accepts a _ []).mpr (h parent)

end Block

/-- The markers directly inside a span, or at the top level, in the order of the text. -/
def sequence (t : Text) (parent : Option Nat) : List Marker :=
  (spans t).filterMap fun s => if s.parent = parent then markerOf (s.text t) else none

/-- Whether the markers pair up everywhere in a text. -/
def PairedIn (t : Text) : Prop :=
  ∀ parent, Marker.paired [] (sequence t parent) = true

/-- Whether the markers pair up inside each span of a text. -/
def PairedInside (t : Text) : Prop :=
  ∀ p, Marker.paired [] (sequence t (some p)) = true

theorem pairedIn_iff {t : Text} :
    PairedIn t ↔ Marker.paired [] (sequence t none) = true ∧ PairedInside t := by
  constructor
  · exact fun pairs => ⟨pairs none, fun p => pairs (some p)⟩
  · rintro ⟨top, inside⟩ (_ | p)
    · exact top
    · exact inside p

theorem filterMap_mapIdx {α β γ : Type} {f : Nat → α → β} {g : β → Option γ} {g' : α → Option γ}
    {xs : List α} (same : ∀ (i : Nat) (hi : i < xs.length), g (f i xs[i]) = g' xs[i]) :
    (xs.mapIdx f).filterMap g = xs.filterMap g' := by
  induction xs generalizing f with
  | nil => rfl
  | cons x xs ih =>
    have head := same 0 (by simp)
    have tail := ih (f := fun i => f (i + 1)) fun i hi => same (i + 1) (by simpa using hi)
    rw [List.getElem_cons_zero] at head
    rw [List.mapIdx_cons, List.filterMap_cons, List.filterMap_cons, head, tail]

theorem siblings_fresh {t : Text} (h : Balanced t) (parent : Option Nat) :
    (Block.siblings (.fresh t) parent).map Prod.snd = sequence t parent := by
  have live : (Arena.fresh t).live = (Arena.fresh t).regions := by
    rw [Arena.live, List.filter_eq_self]
    intro r hr
    simp [(Arena.tidy_fresh h).unwritten r hr]
  rw [Block.siblings, Block.markers, live, Arena.fresh_regions, List.filter_filterMap,
    List.map_filterMap, sequence]
  apply filterMap_mapIdx
  intro i hi
  rw [Arena.regionText_regionOf h (List.getElem_mem hi) i]
  change Option.map Prod.snd (Option.filter _ ((markerOf _).map _)) = _
  by_cases same : (spans t)[i].parent = parent <;>
    cases markerOf ((spans t)[i].text t) <;> simp [Arena.regionOf, same]

theorem ofText_eq_ok {t : Text} {a : Arena} {blocks : List Block} :
    Block.ofText t = .ok (a, blocks) ↔
      Balanced t ∧ a = .fresh t ∧ Block.matchAll (.fresh t) = .ok blocks := by
  rw [Block.ofText, Arena.ofText]
  cases scanned : Span.scan t with
  | error fault =>
    have unbalanced : ¬ Balanced t := fun h => by simp [h.scan_eq] at scanned
    simp [Except.map, Except.mapError, bind, Except.bind, unbalanced]
  | ok found =>
    obtain ⟨balanced, rfl⟩ := scan_eq_ok.mp scanned
    change (Block.matchAll (.fresh t) >>= fun found => pure (Arena.fresh t, found)) = _ ↔ _
    cases Block.matchAll (.fresh t) <;>
      simp [bind, Except.bind, pure, Except.pure, balanced, eq_comm]

theorem accepted_iff {t : Text} : Accepted t ↔ Balanced t ∧ PairedIn t := by
  constructor
  · rintro ⟨a, blocks, h⟩
    obtain ⟨balanced, _, matched⟩ := ofText_eq_ok.mp h
    refine ⟨balanced, fun parent => ?_⟩
    rw [← siblings_fresh balanced]
    exact (Block.matchAll_accepts _).mp ⟨blocks, matched⟩ parent
  · rintro ⟨balanced, pairs⟩
    have all (parent : Option Nat) :
        Marker.paired [] ((Block.siblings (.fresh t) parent).map Prod.snd) = true := by
      rw [siblings_fresh balanced]
      exact pairs parent
    obtain ⟨blocks, matched⟩ := (Block.matchAll_accepts _).mpr all
    exact ⟨_, blocks, ofText_eq_ok.mpr ⟨balanced, rfl, matched⟩⟩

theorem Accepted.balanced {t : Text} (h : Accepted t) : Balanced t :=
  (accepted_iff.mp h).1

theorem sequence_flat {t : Text} (flat : Brace.ofText t = []) (parent : Option Nat) :
    sequence t parent = [] := by
  rw [sequence, spans_flat flat, List.filterMap_nil]

theorem pairedInside_flat {t : Text} (flat : Brace.ofText t = []) : PairedInside t := fun p => by
  rw [sequence_flat flat]
  rfl

section Append

variable {s t : Text} (hs : Closed s) (ht : Balanced t)
include hs ht

theorem sequence_append (parent : Option Nat) :
    sequence (s ++ t) parent = sequence s parent ++ (spans t).filterMap fun a =>
      if a.parent.map (· + (spans s).length) = parent then markerOf (a.text t) else none := by
  rw [sequence, spans_append hs ht, List.filterMap_append, List.filterMap_map, sequence]
  congr 1
  · apply List.filterMap_congr
    intro a ha
    rw [text_append_left (hs.ordered.within a ha).2]
  · apply List.filterMap_congr
    intro a _
    rw [Function.comp_apply, text_under]
    simp only [under, List.head?_nil, Option.or_none]

theorem sequence_top : sequence (s ++ t) none = sequence s none ++ sequence t none := by
  rw [sequence_append hs ht]
  simp only [Option.map_eq_none_iff]
  rfl

theorem sequence_later (p : Nat) :
    sequence (s ++ t) (some (p + (spans s).length)) = sequence t (some p) := by
  have earlier : sequence s (some (p + (spans s).length)) = [] := by
    rw [sequence, List.filterMap_eq_nil_iff]
    intro a ha
    have other : a.parent ≠ some (p + (spans s).length) := fun h => by
      have := hs.ordered.parents a ha _ h
      omega
    rw [if_neg other]
  rw [sequence_append hs ht, earlier, List.nil_append, sequence]
  apply List.filterMap_congr
  intro a _
  have same : a.parent.map (· + (spans s).length) = some (p + (spans s).length) ↔
      a.parent = some p := by
    simp
  simp only [same]

theorem sequence_earlier {p : Nat} (inside : p < (spans s).length) :
    sequence (s ++ t) (some p) = sequence s (some p) := by
  rw [sequence_append hs ht, List.filterMap_eq_nil_iff.mpr, List.append_nil]
  intro a _
  have other : a.parent.map (· + (spans s).length) ≠ some p := fun h => by
    obtain ⟨q, _, hq⟩ := Option.map_eq_some_iff.mp h
    omega
  rw [if_neg other]

theorem pairedInside_append : PairedInside (s ++ t) ↔ PairedInside s ∧ PairedInside t := by
  constructor
  · intro h
    refine ⟨fun p => ?_, fun p => sequence_later hs ht p ▸ h _⟩
    by_cases inside : p < (spans s).length
    · exact sequence_earlier hs ht inside ▸ h p
    · have none : sequence s (some p) = [] := by
        rw [sequence, List.filterMap_eq_nil_iff]
        intro a ha
        have other : a.parent ≠ some p := fun h => inside (hs.ordered.parents a ha _ h)
        rw [if_neg other]
      rw [none]
      rfl
  · rintro ⟨first, second⟩ p
    by_cases inside : p < (spans s).length
    · exact sequence_earlier hs ht inside ▸ first p
    · obtain ⟨q, rfl⟩ := Nat.exists_eq_add_of_le' (Nat.le_of_not_lt inside)
      exact sequence_later hs ht q ▸ second q

end Append

theorem accepted_append_flat {u t : Text} (flat : Brace.ofText u = []) (whole : u.dangling = false) :
    Accepted (u ++ t) ↔ Accepted t := by
  have hu := closed_of_flat flat whole
  have pairs (ht : Balanced t) : PairedIn (u ++ t) ↔ PairedIn t := by
    have inside := pairedInside_append hu ht
    have top := sequence_top hu ht
    rw [sequence_flat flat, List.nil_append] at top
    rw [pairedIn_iff, pairedIn_iff, inside, top, and_iff_right (pairedInside_flat flat)]
  rw [accepted_iff, accepted_iff]
  constructor
  · rintro ⟨balanced, paired⟩
    have ht := hu.balanced_of_append balanced
    exact ⟨ht, (pairs ht).mp paired⟩
  · rintro ⟨ht, paired⟩
    exact ⟨hu.append_balanced ht, (pairs ht).mpr paired⟩

theorem accepted_nil : Accepted [] :=
  ⟨.fresh [], [], rfl⟩

theorem accepted_flat {u : Text} (flat : Brace.ofText u = []) (whole : u.dangling = false) :
    Accepted u := by
  have h := (accepted_append_flat flat whole).mpr accepted_nil
  rwa [List.append_nil] at h

section Span

variable {inner : Text} (h : Closed inner)
include h

theorem sequence_span (parent : Option Nat) :
    sequence (Text.braced inner) parent =
      (if parent = none then (markerOf (Text.braced inner)).toList else []) ++
        (spans inner).filterMap fun a =>
          if (a.parent.map (· + 1)).or (some 0) = parent then markerOf (a.text inner) else none := by
  have inside : ((spans inner).map (under [0] 1 1)).filterMap (fun a =>
      if a.parent = parent then markerOf (a.text (Text.braced inner)) else none) =
        (spans inner).filterMap fun a =>
          if (a.parent.map (· + 1)).or (some 0) = parent then markerOf (a.text inner) else none := by
    rw [List.filterMap_map]
    apply List.filterMap_congr
    intro a ha
    simp only [Function.comp_apply, text_braced (h.ordered.within a ha).2]
    rfl
  rw [sequence, spans_span h, List.filterMap_cons, inside, text_whole]
  cases parent with
  | none => cases markerOf (Text.braced inner) <;> simp
  | some p => simp

theorem sequence_span_top :
    sequence (Text.braced inner) none = (markerOf (Text.braced inner)).toList := by
  rw [sequence_span h, if_pos rfl, List.filterMap_eq_nil_iff.mpr, List.append_nil]
  intro a _
  cases a.parent <;> simp

theorem sequence_span_inside : sequence (Text.braced inner) (some 0) = sequence inner none := by
  rw [sequence_span h, if_neg (by simp), List.nil_append, sequence]
  apply List.filterMap_congr
  intro a _
  cases a.parent <;> simp

theorem sequence_span_deeper (p : Nat) :
    sequence (Text.braced inner) (some (p + 1)) = sequence inner (some p) := by
  rw [sequence_span h, if_neg (by simp), List.nil_append, sequence]
  apply List.filterMap_congr
  intro a _
  cases a.parent <;> simp

theorem pairedInside_span : PairedInside (Text.braced inner) ↔ PairedIn inner := by
  constructor
  · intro pairs parent
    cases parent with
    | none => exact sequence_span_inside h ▸ pairs 0
    | some p => exact sequence_span_deeper h p ▸ pairs (p + 1)
  · intro pairs p
    cases p with
    | zero => exact (sequence_span_inside h).symm ▸ pairs none
    | succ p => exact (sequence_span_deeper h p).symm ▸ pairs (some p)

end Span

namespace Piece

def marker? : Piece → Option Marker
  | plain _ => none
  | span inner => markerOf (Text.braced inner)

theorem Separated.sequence_top {ps : List Piece} (h : Separated ps) :
    sequence (textOf ps) none = ps.filterMap marker? := by
  induction h with
  | nil => rfl
  | last _ flat => simp [textOf, text, marker?, sequence_flat flat]
  | @plain u inner ps _ flat whole hs ih =>
    have hu := closed_of_flat flat whole
    rw [textOf_cons, text, ChatCommands.sequence_top hu hs.balanced, ih, sequence_flat flat]
    rfl
  | @span inner ps hi hs ih =>
    rw [textOf_cons, text, ChatCommands.sequence_top hi.span hs.balanced, ih, sequence_span_top hi,
      List.filterMap_cons, marker?]
    cases markerOf (Text.braced inner) <;> rfl

theorem Separated.pairedInside {ps : List Piece} (h : Separated ps) :
    PairedInside (textOf ps) ↔ ∀ inner, .span inner ∈ ps → PairedIn inner := by
  induction h with
  | nil => simpa using pairedInside_flat rfl
  | last _ flat => simpa [textOf, text] using pairedInside_flat flat
  | @plain u inner ps _ flat whole hs ih =>
    have hu := closed_of_flat flat whole
    rw [textOf_cons, text, pairedInside_append hu hs.balanced, ih]
    simp [pairedInside_flat flat]
  | @span inner ps hi hs ih =>
    rw [textOf_cons, text, pairedInside_append hi.span hs.balanced, pairedInside_span hi, ih]
    simp [or_imp, forall_and]

/-- A template is accepted where its markers pair up and the insides of its spans are accepted. -/
theorem Separated.accepted_iff {ps : List Piece} (h : Separated ps) :
    Accepted (textOf ps) ↔ Marker.paired [] (ps.filterMap marker?) = true ∧
      ∀ inner, .span inner ∈ ps → Accepted inner := by
  have inside : (∀ inner, .span inner ∈ ps → Accepted inner) ↔
      ∀ inner, .span inner ∈ ps → PairedIn inner := by
    refine forall_congr' fun inner => forall_congr' fun member => ?_
    rw [ChatCommands.accepted_iff]
    exact and_iff_right (h.closed_inner member).balanced
  rw [inside, ← h.pairedInside, ← h.sequence_top, ChatCommands.accepted_iff,
    and_iff_right h.balanced, pairedIn_iff]

end Piece

end ChatCommands
