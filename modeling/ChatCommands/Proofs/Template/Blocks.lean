import ChatCommands.Proofs.Template.Grammar
import ChatCommands.Proofs.Template.Splicing

/-!
The blocks of a whole template.

Siblings are paired group by group. A template has blocks exactly when the markers of each group
form a word of the grammar, and else one of the markers is to blame.
-/

namespace ChatCommands

/-- Sorting by a key into the groups of the keys that occur loses nothing. -/
theorem perm_groups {α β : Type} [BEq β] [LawfulBEq β] (key : α → β) (xs : List α) :
    ((xs.map key).eraseDups.flatMap fun k => xs.filter fun x => key x == k).Perm xs := by
  induction h : xs.length using Nat.strongRecOn generalizing xs with
  | ind n ih =>
  -- The group of the first key, and then the other keys over what is left.
  cases xs with
  | nil => exact .nil
  | cons x xs =>
    have others : (xs.map key).filter (fun k => !k == key x) =
        (xs.filter fun y => !key y == key x).map key := by
      rw [List.filter_map]
      rfl
    have groups : (((xs.filter fun y => !key y == key x).map key).eraseDups.flatMap fun k =>
        (x :: xs).filter fun y => key y == k) =
          ((xs.filter fun y => !key y == key x).map key).eraseDups.flatMap fun k =>
            (xs.filter fun y => !key y == key x).filter fun y => key y == k := by
      apply List.flatMap_congr
      intro k hk
      obtain ⟨y, hy, rfl⟩ := List.mem_map.mp (List.mem_eraseDups.mp hk)
      have apart : key y ≠ key x := by simpa using (List.mem_filter.mp hy).2
      rw [List.filter_filter, List.filter_cons_of_neg (by simpa using apart.symm)]
      apply List.filter_congr
      intro z _
      by_cases same : key z = key y <;> simp [same, apart]
    have shorter : (xs.filter fun y => !key y == key x).length < n := by
      have := List.length_filter_le (fun y => !key y == key x) xs
      rw [← h, List.length_cons]
      omega
    have rest := ih _ shorter _ rfl
    rw [List.map_cons, List.eraseDups_cons, others, List.flatMap_cons, groups]
    refine (rest.append_left _).trans ?_
    have first : (x :: xs).filter (fun y => key y == key x) =
        x :: xs.filter fun y => key y == key x := List.filter_cons_of_pos (by simp)
    rw [first]
    exact (List.filter_append_perm (fun y => key y == key x) xs).cons x

/-- The kind of the markers that can be at fault in this way. -/
def Misplaced.kind : Misplaced → Marker
  | .strayElse | .secondElse => .divides
  | .strayFi => .closes
  | .missingFi => .opens

namespace Arena

/-- Whether a region ends before another begins. -/
def Precedes (a : Arena) (r q : Region) : Prop :=
  a.stop r ≤ a.start q

theorem precedes_of_lt (a : Arena) {r q : Region} (before : r.last < q.first) : a.Precedes r q := by
  rw [Precedes, stop, start, a.offset_between before]
  exact Nat.le_add_right _ _

end Arena

namespace Block

theorem ofSiblings_misplaced {a : Arena} {found : List (Region × Marker)}
    {pending : List (Region × Option Region)} {e : ParseError}
    (h : ofSiblings a pending found = .error e) :
    ∃ fault r, (r, fault.kind) ∈ pending.map (fun p => (p.1, .opens)) ++ found ∧
      e = misplaced a fault r := by
  induction found generalizing pending with
  | nil =>
    cases pending with
    | nil => cases h
    | cons p outer =>
      cases h
      exact ⟨.missingFi, _, List.mem_cons_self, rfl⟩
  | cons m rest ih =>
    obtain ⟨r, kind⟩ := m
    cases kind with
    | opens =>
      obtain ⟨fault, q, blamed, same⟩ := ih h
      exact ⟨fault, q, List.perm_middle.symm.subset blamed, same⟩
    | divides =>
      rcases pending with _ | ⟨⟨opener, _ | divider⟩, outer⟩
      · cases h
        exact ⟨.strayElse, _, List.mem_cons_self, rfl⟩
      · obtain ⟨fault, q, blamed, same⟩ := ih h
        have skipped := (List.sublist_cons_self (r, Marker.divides) rest).append_left
          (((opener, some r) :: outer).map fun p => (p.1, Marker.opens))
        exact ⟨fault, q, skipped.subset blamed, same⟩
      · cases h
        exact ⟨.secondElse, _, List.mem_append_right _ List.mem_cons_self, rfl⟩
    | closes =>
      cases pending with
      | nil =>
        cases h
        exact ⟨.strayFi, _, List.mem_cons_self, rfl⟩
      | cons p outer =>
        cases later : ofSiblings a outer rest with
        | error other =>
          rw [ofSiblings, later] at h
          cases h
          obtain ⟨fault, q, blamed, same⟩ := ih later
          have skipped := (List.sublist_cons_self (p.1, Marker.opens)
            (outer.map fun p => (p.1, Marker.opens))).append
              (List.sublist_cons_self (r, Marker.closes) rest)
          exact ⟨fault, q, skipped.subset blamed, same⟩
        | ok others =>
          rw [ofSiblings, later] at h
          cases h

theorem matchAll_misplaced {a : Arena} {e : ParseError} (h : matchAll a = .error e) :
    ∃ fault r, (r, fault.kind) ∈ markers a ∧ e = misplaced a fault r := by
  rw [matchAll_eq] at h
  cases groups : (parents (markers a)).mapM fun parent => ofSiblings a [] (siblings a parent) with
  | ok found =>
    rw [groups] at h
    cases h
  | error first =>
    rw [groups] at h
    cases h
    obtain ⟨parent, _, refused⟩ := error_of_mapM groups
    obtain ⟨fault, r, blamed, same⟩ := ofSiblings_misplaced refused
    exact ⟨fault, r, (List.mem_filter.mp blamed).1, same⟩

theorem perm_of_mapM {a : Arena} {ps : List (Option Nat)} {groups : List (List Block)}
    (h : ps.mapM (fun parent => ofSiblings a [] (siblings a parent)) = .ok groups) :
    (groups.flatten.flatMap members).Perm (ps.flatMap (siblings a)) := by
  induction ps generalizing groups with
  | nil =>
    cases h
    exact .nil
  | cons p ps ih =>
    rw [List.mapM_cons] at h
    cases first : ofSiblings a [] (siblings a p) with
    | error e =>
      rw [first] at h
      cases h
    | ok group =>
      cases rest : ps.mapM fun parent => ofSiblings a [] (siblings a parent) with
      | error e =>
        rw [first, rest] at h
        cases h
      | ok others =>
        rw [first, rest] at h
        cases h
        rw [List.flatten_cons, List.flatMap_append, List.flatMap_cons]
        exact (bracketed_of_ofSiblings first).perm.append (ih rest)

/-- The blocks of a template use each marker once, and each comes from the siblings of a parent. -/
theorem matchAll_groups {a : Arena} {blocks : List Block} (h : matchAll a = .ok blocks) :
    (blocks.flatMap members).Perm (markers a) ∧ ∀ b ∈ blocks, ∃ group,
      ofSiblings a [] (siblings a b.opener.parent) = .ok group ∧ b ∈ group := by
  rw [matchAll_eq] at h
  cases groups : (parents (markers a)).mapM fun parent => ofSiblings a [] (siblings a parent) with
  | error e =>
    rw [groups] at h
    cases h
  | ok found =>
    rw [groups] at h
    cases h
    refine ⟨(perm_of_mapM groups).trans (perm_groups _ _), fun b hb => ?_⟩
    obtain ⟨group, hg, member⟩ := List.mem_flatten.mp hb
    obtain ⟨parent, _, paired⟩ := (mem_of_mapM groups group).mp hg
    have opener := (bracketed_of_ofSiblings paired).opener_mem member
    have same := (mem_siblings (List.mem_map_of_mem opener)).2
    exact ⟨group, same ▸ paired, member⟩

theorem members_siblings {a : Arena} {blocks : List Block} (h : matchAll a = .ok blocks) {b : Block}
    (hb : b ∈ blocks) : b.members.Sublist (siblings a b.opener.parent) := by
  obtain ⟨group, paired, member⟩ := (matchAll_groups h).2 b hb
  exact (bracketed_of_ofSiblings paired).sublist member

/-- Whether a block lies in a branch of another. -/
def InBranch (a : Arena) (b c : Block) : Prop :=
  ∃ x ∈ c.branches, a.Precedes x.1 b.opener ∧ a.Precedes b.closer x.2

/-- The blocks that an arena has by its markers. -/
structure Pairs (a : Arena) (blocks : List Block) : Prop where
  only : ∀ b ∈ blocks, ∀ m ∈ b.members,
    m.1 ∈ a.regions ∧ markerOf (a.regionText m.1) = some m.2
  once : ∀ r ∈ a.regions, ∀ kind, markerOf (a.regionText r) = some kind →
    ∃! b, b ∈ blocks ∧ (r, kind) ∈ b.members
  keyed : (blocks.map fun b => b.opener.index).Nodup
  parent : ∀ b ∈ blocks, ∀ m ∈ b.members, m.1.parent = b.opener.parent
  order : ∀ b ∈ blocks, b.members.Pairwise fun m n => a.Precedes m.1 n.1
  apart : ∀ b ∈ blocks, ∀ c ∈ blocks, b ≠ c → b.opener.parent = c.opener.parent →
    a.Precedes b.closer c.opener ∨ a.Precedes c.closer b.opener ∨ InBranch a b c ∨ InBranch a c b

/-- What the pairing of the markers of a text has to answer. -/
structure Matched (t : Text) (a : Arena) (result : Except ParseError (List Block)) : Prop where
  accepts : (∃ blocks, result = .ok blocks) ↔ ∀ parent, Marker.Word (sequence t parent)
  pairs : ∀ blocks, result = .ok blocks → Pairs a blocks
  blames : ∀ e, result = .error e → ∃ fault, ∃ r ∈ a.regions,
    markerOf (a.regionText r) = some fault.kind ∧ e = misplaced a fault r

theorem mem_markers {a : Arena} (tidy : a.Tidy) {m : Region × Marker} :
    m ∈ markers a ↔ m.1 ∈ a.regions ∧ markerOf (a.regionText m.1) = some m.2 := by
  rw [markers, tidy.live, List.mem_filterMap]
  constructor
  · rintro ⟨r, hr, found⟩
    obtain ⟨kind, known, rfl⟩ := Option.map_eq_some_iff.mp found
    exact ⟨hr, known⟩
  · rintro ⟨hr, known⟩
    exact ⟨m.1, hr, Option.map_eq_some_iff.mpr ⟨m.2, known, rfl⟩⟩

theorem pairs_of_matchAll {a : Arena} (tidy : a.Tidy) (laminar : a.Laminar) {blocks : List Block}
    (h : matchAll a = .ok blocks) : Pairs a blocks := by
  obtain ⟨perm, groups⟩ := matchAll_groups h
  have numbers : (blocks.flatMap members).Pairwise fun m n => m.1.index ≠ n.1.index :=
    (perm.pairwise_iff fun h => h.symm).mpr (markers_distinct tidy)
  have order (parent : Option Nat) :
      (siblings a parent).Pairwise fun m n => a.Precedes m.1 n.1 := by
    refine ((markers_pairwise laminar.siblings_apart).filter _).imp_of_mem fun hm hn before => ?_
    have first := (mem_siblings (List.mem_map_of_mem hm)).2
    have second := (mem_siblings (List.mem_map_of_mem hn)).2
    exact a.precedes_of_lt (before (first.trans second.symm))
  obtain ⟨_, distinct⟩ := List.pairwise_flatMap.mp numbers
  constructor
  · intro b hb m hm
    exact (mem_markers tidy).mp (perm.subset (List.mem_flatMap.mpr ⟨b, hb, hm⟩))
  · intro r hr kind known
    have marker := perm.symm.subset ((mem_markers (m := (r, kind)) tidy).mpr ⟨hr, known⟩)
    obtain ⟨b, hb, here⟩ := List.mem_flatMap.mp marker
    refine ⟨b, ⟨hb, here⟩, fun c ⟨hc, there⟩ => ?_⟩
    by_contra other
    rcases related_of_pairwise distinct hc hb other with apart | apart
    · exact apart _ there _ here rfl
    · exact apart _ here _ there rfl
  · rw [List.Nodup, List.pairwise_map]
    exact distinct.imp fun h => h _ List.mem_cons_self _ List.mem_cons_self
  · intro b hb m hm
    exact (mem_siblings (List.mem_map_of_mem ((members_siblings h hb).subset hm))).2
  · exact fun b hb => (order _).sublist (members_siblings h hb)
  · intro b hb c hc other same
    obtain ⟨group, paired, member⟩ := groups b hb
    obtain ⟨group', paired', member'⟩ := groups c hc
    rw [← same, paired] at paired'
    cases paired'
    have apart := (bracketed_of_ofSiblings paired).apart (order _)
    rcases related_of_pairwise apart member member' other with
      (before | inside) | (behind | around)
    · exact .inl before
    · exact .inr (.inr (.inl inside))
    · exact .inr (.inl behind)
    · exact .inr (.inr (.inr around))

/-- Markers are paired exactly where they form words of the grammar, and then as the grammar pairs
them. -/
theorem matchAll_matched {t : Text} {a : Arena} (read : Arena.ofText t = .ok a) :
    Matched t a (matchAll a) := by
  obtain ⟨balanced, rfl⟩ := Arena.ofText_eq_ok.mp read
  have tidy := Arena.tidy_fresh balanced
  constructor
  · rw [matchAll_accepts]
    refine forall_congr' fun parent => ?_
    rw [siblings_fresh balanced, Marker.word_iff]
  · exact fun blocks => pairs_of_matchAll tidy (Arena.laminar_fresh balanced)
  · intro e refused
    obtain ⟨fault, r, blamed, same⟩ := matchAll_misplaced refused
    obtain ⟨region, known⟩ := (mem_markers tidy).mp blamed
    exact ⟨fault, r, region, known, same⟩

/-- A block with both branches, the first of which holds a span with a block inside. -/
theorem matchAll_matched_nested :
    let t := "\x7bif;a\x7d\x7bx\x7bif\x7d\x7bfi\x7d\x7d\x7belse\x7dy\x7bfi\x7d".toList
    Arena.ofText t = .ok (.fresh t) ∧ Matched t (.fresh t) (matchAll (.fresh t)) := by
  intro t
  have balanced : Balanced t := (balanced_iff t).mpr rfl
  have read : Arena.ofText t = .ok (.fresh t) := Arena.ofText_eq_ok.mpr ⟨balanced, rfl⟩
  exact ⟨read, matchAll_matched read⟩

end Block

end ChatCommands
