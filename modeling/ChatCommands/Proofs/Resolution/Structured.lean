import ChatCommands.Proofs.Template.Writing
import ChatCommands.Proofs.Resolution.Agreement

/-!
A template is resolved as its script says.

The loop over the regions writes into one arena. What it has done lies in front, what it has not
reached is as it was at the start, so it does for each unit of a script what the unit stands for.
-/

namespace ChatCommands

open Piece Arena

section Run

variable (c : Context) (inner : Text → Resolve Text) (depth : Nat)

def Piece.run : Piece → Resolve Text
  | plain u => return unescape bracePair u
  | span body => do
    let i := Instruction.decode (Text.braced body)
    Resolve.count c depth i .empty
    Resolve.perform c inner (Verb.ofKeyword i.keyword) i

/-- Whether the condition of a piece that opens a block holds. -/
def Piece.test (p : Piece) : Resolve Bool := do
  let i := Instruction.decode p.text
  Resolve.count c depth i .empty
  Resolve.condition c inner i

/-- The text that a script gives: of a block, that of the branch that is taken. -/
def Script.run : Script → Resolve Text
  | done => return []
  | leaf p next => do
    let shown ← p.run c inner depth
    let rest ← next.run
    return shown ++ rest
  | ifThen opener yes _ next => do
    let holds ← opener.test c inner depth
    let shown ← (if holds then yes.run else pure [])
    let rest ← next.run
    return shown ++ rest
  | ifElse opener yes _ no _ next => do
    let holds ← opener.test c inner depth
    let shown ← (if holds then yes.run else no.run)
    let rest ← next.run
    return shown ++ rest

end Run

theorem Verb.mem_keywords {keyword : Text} (known : ofKeyword keyword ≠ .reference) :
    (keyword, ofKeyword keyword) ∈ keywords := by
  cases found : keywords.lookup keyword with
  | none => simp [ofKeyword, found] at known
  | some v =>
    obtain ⟨before, after, split, _⟩ := List.lookup_eq_some_iff.mp found
    have same : ofKeyword keyword = v := by rw [ofKeyword, found, Option.getD_some]
    rw [same, split]
    exact List.mem_append_right _ List.mem_cons_self

theorem Verb.ofKeyword_eq_condition {keyword : Text} :
    Verb.ofKeyword keyword = .condition ↔ Marker.ofKeyword? keyword = some .opens := by
  have opens : Marker.ofKeyword? keyword = some .opens ↔ keyword = "if".toList := by
    unfold Marker.ofKeyword?
    split <;> simp_all
    split <;> simp_all
  rw [opens]
  constructor
  · intro h
    have listed : (keyword, Verb.ofKeyword keyword) ∈ Verb.keywords :=
      Verb.mem_keywords (by simp [h])
    rw [h] at listed
    simpa [Verb.keywords] using listed
  · rintro rfl
    rfl

namespace Piece.Valid

theorem slots_positive {p : Piece} (h : p.Valid) : 0 < (layout [p]).slots.length := by
  rw [layout_single]
  cases p with
  | plain u =>
    rw [text, fresh_flat h.1 h.2]
    exact Nat.one_pos
  | span body => exact (fresh_span h).1

theorem render_plain {u : Text} (h : (plain u).Valid) :
    (layout [plain u]).render = unescape bracePair u := by
  rw [layout_single, text, fresh_flat h.1 h.2]
  simp [render]

theorem regions_span {body : Text} (h : (span body).Valid) :
    ∃ nested, (layout [span body]).regions = Place.head ⟨0, 0⟩ (span body) :: nested := by
  obtain ⟨_, nested, regions, _⟩ := fresh_span h
  refine ⟨nested, ?_⟩
  rw [Place.head, layout_single, text, regions, Nat.zero_add]

theorem regions_cons {body : Text} (h : (span body).Valid) (here : Place) :
    ∃ nested, here.regions [span body] = here.head (span body) :: nested := by
  obtain ⟨nested, regions⟩ := h.regions_span
  exact ⟨_, by rw [Place.regions, regions, List.map_cons, here.shift_head]⟩

theorem isVoid_head {body : Text} (h : (span body).Valid) (x z : Arena) :
    (x ++ (layout [span body] ++ z)).isVoid (x.place.head (span body)).index = false := by
  obtain ⟨nested, regions⟩ := h.regions_span
  have live := isVoid_middle x (layout [span body]) z (i := 0) (by rw [regions]; rfl)
  rw [Nat.zero_add] at live
  exact live

theorem regionText_head {p : Piece} (h : p.Valid) (x z : Arena) :
    (x ++ (layout [p] ++ z)).regionText (x.place.head p) = p.text := by
  have positive := h.slots_positive
  have all : (layout [p]).slots.length - 1 + 1 = (layout [p]).slots.length := by omega
  rw [← x.place.shift_head p, place, regionText_append_right, regionText_append_left]
  · rw [regionText, Place.head, Nat.zero_add, all, List.take_length, List.drop_zero, layout_single]
    exact text_fresh p.text
  · simp only [Place.head]
    omega

end Piece.Valid

namespace Resolve

variable {c : Context} {inner : Text → Resolve Text} {depth : Nat} {found : List Block}

theorem walk_append (rs rest : List Region) (a : Arena) :
    walk c inner depth found (rs ++ rest) a =
      walk c inner depth found rs a >>= walk c inner depth found rest := by
  induction rs generalizing a with
  | nil => simp [walk]
  | cons r rs ih =>
    rw [List.cons_append, walk, walk]
    split
    · exact ih a
    · simp only [bind_assoc]
      congr 1
      funext _
      cases Verb.ofKeyword (Instruction.decode (a.regionText r)).keyword <;>
        simp only [bind_assoc, ih]
      congr 1
      funext holds
      split <;> rfl

theorem walk_void {rs : List Region} {a : Arena} (h : ∀ r ∈ rs, a.isVoid r.index = true) :
    walk c inner depth found rs a = pure a := by
  induction rs with
  | nil => rfl
  | cons r rs ih =>
    obtain ⟨head, tail⟩ := List.forall_mem_cons.mp h
    rw [walk, if_pos head, ih tail]

theorem isVoid_regions {ps : List Piece} (valid : ∀ p ∈ ps, p.Valid) {y : Arena}
    (same : y.regions.length = (layout ps).regions.length) (void : ∀ r ∈ y.regions, r.void = true)
    (x z : Arena) : ∀ r ∈ x.place.regions ps, (x ++ (y ++ z)).isVoid r.index = true := by
  intro r hr
  obtain ⟨q, hq, rfl⟩ := List.mem_map.mp hr
  obtain ⟨i, hi⟩ := List.mem_iff_getElem?.mp hq
  have inside : i < y.regions.length := by
    rw [same]
    exact (List.getElem?_eq_some_iff.mp hi).1
  have index := (tidy_layout valid).numbered i q hi
  simp only [Region.shift, place, index]
  rw [isVoid_middle x y z (List.getElem?_eq_getElem inside)]
  exact void _ (List.getElem_mem inside)

/-- An arena whose middle part, the pieces `ps`, has become a text. -/
def Becomes (x : Arena) (ps : List Piece) (z a : Arena) (shown : Text) : Prop :=
  ∃ y, Settled y (layout ps) shown ∧ a = x ++ (y ++ z)

theorem walk_seq {x w z a : Arena} {ps qs : List Piece} {first second : Resolve Text}
    (front : Agrees (Becomes x ps w) (walk c inner depth found (x.place.regions ps) a) first)
    (back : ∀ y shown, Settled y (layout ps) shown →
      Agrees (Becomes (x ++ y) qs z)
        (walk c inner depth found ((x ++ y).place.regions qs) (x ++ y ++ w)) second) :
    Agrees (Becomes x (ps ++ qs) z) (walk c inner depth found (x.place.regions (ps ++ qs)) a) (do
      let shown ← first
      let rest ← second
      return shown ++ rest) := by
  rw [Place.regions_append, walk_append]
  refine front.bind ?_
  rintro _ shown ⟨y, settled, rfl⟩
  rw [← settled.place_append, ← Arena.append_assoc, ← bind_pure (walk c inner depth found _ _)]
  refine (back y shown settled).bind ?_
  rintro _ rest ⟨y', settled', rfl⟩
  refine .pure ⟨y ++ y', ?_, by rw [Arena.append_assoc, Arena.append_assoc]⟩
  rw [layout_append]
  exact settled.append settled'

theorem walk_live {r : Region} {a : Arena} (live : a.isVoid r.index = false)
    (other : Verb.ofKeyword (Instruction.decode (a.regionText r)).keyword ≠ .condition)
    (rest : List Region) :
    walk c inner depth found (r :: rest) a = (do
      let i := Instruction.decode (a.regionText r)
      count c depth i a
      let new ← perform c inner (Verb.ofKeyword i.keyword) i
      walk c inner depth found rest (a.replace r new).2) := by
  rw [walk, live, if_neg Bool.false_ne_true]
  refine bind_congr fun _ => ?_
  split
  · contradiction
  · rfl

theorem walk_opener {r : Region} {a : Arena} {b : Block} (live : a.isVoid r.index = false)
    (opens : Verb.ofKeyword (Instruction.decode (a.regionText r)).keyword = .condition)
    (block : found.find? (fun x => x.opener.index == r.index) = some b) (rest : List Region) :
    walk c inner depth found (r :: rest) a = (do
      let i := Instruction.decode (a.regionText r)
      count c depth i a
      let holds ← condition c inner i
      walk c inner depth found rest (b.choose holds a)) := by
  rw [walk, live, if_neg Bool.false_ne_true]
  refine bind_congr fun _ => ?_
  rw [opens, block]

/-- A piece that is no marker is replaced by what it gives. -/
theorem walk_piece {p : Piece} (valid : p.Valid) (unmarked : p.marker? = none) {x : Arena}
    (hx : x.Within) (z : Arena) :
    Agrees (Becomes x [p] z) (walk c inner depth found (x.place.regions [p]) (x ++ (layout [p] ++ z)))
      (p.run c inner depth) := by
  have within : (layout [p]).Within := valid.layout_tidy.bounds
  have positive := valid.slots_positive
  cases p with
  | plain u =>
    have none : x.place.regions [plain u] = [] := by
      rw [Place.regions, layout_single, Piece.text, fresh_flat valid.1 valid.2,
        List.map_nil]
    rw [none]
    exact .pure ⟨_, ⟨rfl, rfl, within, valid.render_plain⟩, rfl⟩
  | span body =>
    obtain ⟨nested, regions⟩ := valid.regions_cons x.place
    have other : Verb.ofKeyword (Instruction.decode (span body).text).keyword ≠ .condition := by
      intro h
      have marker := Verb.ofKeyword_eq_condition.mp h
      rw [marker?, markerOf, ← Piece.text, marker] at unmarked
      cases unmarked
    rw [← valid.regionText_head x z] at other
    rw [regions, walk_live (valid.isVoid_head x z) other, valid.regionText_head, run,
      ← bind_pure (perform c inner _ _)]
    refine Agrees.bind (count_alike c depth _ _ _) fun _ _ _ => Agrees.bind (Alike.refl _) ?_
    rintro new _ rfl
    have void : ∀ r ∈ nested, (x ++ ((layout [span body]).blank new ++ z)).isVoid r.index = true := by
      have single : ∀ p ∈ [span body], p.Valid := by simpa using valid
      have all := isVoid_regions single (y := (layout [span body]).blank new) (by simp [blank])
        (by simp [blank]) x z
      rw [regions] at all
      exact (List.forall_mem_cons.mp all).2
    have written : ((x ++ (layout [span body] ++ z)).replace (x.place.head (span body)) new).2 =
        x ++ ((layout [span body]).blank new ++ z) := write_middle hx within positive z new
    rw [written, walk_void void]
    exact .pure ⟨_, .blank within positive new, rfl⟩

theorem erase_layout {x : Arena} (hx : x.Within) {ps : List Piece} (valid : ∀ p ∈ ps, p.Valid)
    (positive : 0 < (layout ps).slots.length) (z : Arena) {first last : Nat}
    (start : first = x.slots.length)
    (stop : last = x.slots.length + ((layout ps).slots.length - 1)) :
    ((x ++ (layout ps ++ z)).erase first last).2 = x ++ ((layout ps).blank [] ++ z) := by
  subst start stop
  exact write_middle hx (tidy_layout valid).bounds positive z []

/-- The arena where only `taken` is left of a block. -/
def Chosen (x : Arena) (before taken after : List Piece) (z a : Arena) : Prop :=
  ∃ front back, Erased front (layout before) ∧ Erased back (layout after) ∧
    a = x ++ (front ++ (layout taken ++ (back ++ z)))

/-- Erasing what stands behind the branch that is taken, and then what stands in front of it. -/
theorem chosen_erase {x : Arena} (hx : x.Within) {before taken after : List Piece}
    (valid : ∀ p ∈ before ++ (taken ++ after), p.Valid) (positive : 0 < (layout before).slots.length)
    (positive' : 0 < (layout after).slots.length) (z : Arena) {first last first' last' : Nat}
    (start : first = x.slots.length)
    (stop : last = x.slots.length + ((layout before).slots.length - 1))
    (start' : first' = x.slots.length + (layout (before ++ taken)).slots.length)
    (stop' : last' = first' + ((layout after).slots.length - 1)) :
    Chosen x before taken after z
      (((x ++ (layout (before ++ (taken ++ after)) ++ z)).erase first' last').2.erase
        first last).2 := by
  simp only [List.forall_mem_append] at valid
  obtain ⟨hb, ht, ha⟩ := valid
  have front : (x ++ layout (before ++ taken)).Within :=
    hx.append (tidy_layout (List.forall_mem_append.mpr ⟨hb, ht⟩)).bounds
  have split : x ++ (layout (before ++ (taken ++ after)) ++ z) =
      x ++ layout (before ++ taken) ++ (layout after ++ z) := by
    simp only [layout_append, Arena.append_assoc]
  have length : (x ++ layout (before ++ taken)).slots.length =
      x.slots.length + (layout (before ++ taken)).slots.length := by simp
  rw [split, erase_layout front ha positive' z (by omega) (by omega), layout_append,
    Arena.append_assoc, Arena.append_assoc, erase_layout hx hb positive _ start stop]
  exact ⟨_, _, .blank (tidy_layout hb).bounds positive, .blank (tidy_layout ha).bounds positive',
    rfl⟩

/-- Passing what is left of a block, and what follows it. -/
theorem walk_chosen {x z a : Arena} {ps before taken after rest : List Piece}
    {shown next : Resolve Text} (pieces : ps = before ++ (taken ++ (after ++ rest)))
    (hx : x.Within) (hb : ∀ p ∈ before, p.Valid)
    (ha : ∀ p ∈ after, p.Valid) (chosen : Chosen x before taken after (layout rest ++ z) a)
    (walk_taken : ∀ y w, y.Within → y.place = x.place.after before →
      Agrees (Becomes y taken w)
        (walk c inner depth found (y.place.regions taken) (y ++ (layout taken ++ w))) shown)
    (walk_rest : ∀ y, y.Within → y.place = x.place.after (before ++ (taken ++ after)) →
      Agrees (Becomes y rest z)
        (walk c inner depth found (y.place.regions rest) (y ++ (layout rest ++ z))) next) :
    Agrees (Becomes x ps z) (walk c inner depth found (x.place.regions ps) a) (do
      let shown ← shown
      let rest ← next
      return shown ++ rest) := by
  subst pieces
  obtain ⟨front, back, hfront, hback, rfl⟩ := chosen
  have pass {ps : List Piece} (valid : ∀ p ∈ ps, p.Valid) {y : Arena}
      (erased : Erased y (layout ps)) (x w : Arena) :
      Agrees (Becomes x ps w) (walk c inner depth found (x.place.regions ps) (x ++ (y ++ w)))
        (pure []) := by
    rw [walk_void (isVoid_regions valid erased.regions erased.void x w)]
    exact .pure ⟨y, erased.toSettled, rfl⟩
  have all := walk_seq (pass hb hfront x _) fun y _ settled =>
    walk_seq (walk_taken (x ++ y) _ (hx.append settled.within) (settled.place_append x))
      fun y' _ settled' => walk_seq (pass ha hback (x ++ y ++ y') _) fun y'' _ settled'' =>
        walk_rest (x ++ y ++ y' ++ y'')
          (((hx.append settled.within).append settled'.within).append settled''.within)
          (by simp [settled.place_append, settled'.place_append, settled''.place_append])
  simpa using all

theorem Chosen.isVoid_opener {x z a : Arena} {opener : Piece} {before taken after : List Piece}
    (valid : ∀ p ∈ opener :: before, p.Valid) (marker : opener.marker? = some .opens)
    (chosen : Chosen x (opener :: before) taken after z a) :
    a.isVoid (x.place.head opener).index = true := by
  obtain ⟨front, back, hfront, _, rfl⟩ := chosen
  refine isVoid_regions valid hfront.regions hfront.void x _ _ ?_
  cases opener with
  | plain u => cases marker
  | span body =>
    obtain ⟨nested, regions⟩ := Valid.regions_cons (List.forall_mem_cons.mp valid).1 x.place
    rw [← List.singleton_append, Place.regions_append, regions]
    exact List.mem_append_left _ List.mem_cons_self

/-- A block is passed by testing its condition and passing the arena of the chosen branch. -/
theorem walk_block {related : Arena → Text → Prop} {x z : Arena} {opener : Piece}
    {ps qs : List Piece} {b : Block} {shown : Bool → Resolve Text} (valid : opener.Valid)
    (marker : opener.marker? = some .opens)
    (block : found.find? (fun x' => x'.opener.index == (x.place.head opener).index) = some b)
    (void : ∀ holds, (b.choose holds (x ++ (layout (opener :: qs) ++ z))).isVoid
      (x.place.head opener).index = true)
    (branch : ∀ holds, Agrees related
      (walk c inner depth found (x.place.regions (opener :: ps))
        (b.choose holds (x ++ (layout (opener :: qs) ++ z)))) (shown holds)) :
    Agrees related
      (walk c inner depth found (x.place.regions (opener :: ps))
        (x ++ (layout (opener :: qs) ++ z))) (do
        let holds ← opener.test c inner depth
        shown holds) := by
  have split : layout (opener :: qs) ++ z = layout [opener] ++ (layout qs ++ z) := by
    rw [← Arena.append_assoc, ← layout_append, List.singleton_append]
  rw [split] at void branch ⊢
  cases opener with
  | plain u => cases marker
  | span body =>
    obtain ⟨nested, regions⟩ := valid.regions_cons x.place
    have cons : x.place.regions (span body :: ps) =
        x.place.head (span body) :: (nested ++ (x.place.after [span body]).regions ps) := by
      rw [← List.singleton_append, Place.regions_append, regions, List.cons_append]
    have opens : Verb.ofKeyword (Instruction.decode (span body).text).keyword = .condition :=
      Verb.ofKeyword_eq_condition.mpr marker
    rw [← valid.regionText_head x (layout qs ++ z)] at opens
    rw [cons, walk_opener (valid.isVoid_head x _) opens block, valid.regionText_head, test,
      bind_assoc]
    refine Agrees.bind (count_alike c depth _ _ _) fun _ _ _ => Agrees.bind (Alike.refl _) ?_
    rintro holds _ rfl
    have next := branch holds
    rw [cons, walk, if_pos (void holds)] at next
    exact next

theorem chosen_ifThen {x : Arena} (hx : x.Within) {opener closer : Piece} {yes : List Piece}
    (valid : ∀ p ∈ opener :: (yes ++ [closer]), p.Valid) (z : Arena) :
    let b : Block :=
      ⟨x.place.head opener, none, (x.place.after (opener :: yes)).head closer⟩
    let a := x ++ (layout (opener :: (yes ++ [closer])) ++ z)
    Chosen x [opener] yes [closer] z (b.choose true a) ∧
      Chosen x (opener :: (yes ++ [closer])) [] [] z (b.choose false a) := by
  have first := Valid.slots_positive (valid opener (by simp))
  have last := Valid.slots_positive (valid closer (by simp))
  refine ⟨chosen_erase hx valid first last z rfl rfl rfl rfl, ?_⟩
  have positive : 0 < (layout (opener :: (yes ++ [closer]))).slots.length := by
    rw [← List.singleton_append, layout_append, slots_append, List.length_append]
    omega
  refine ⟨_, .empty, .blank (tidy_layout valid).bounds positive, .empty, ?_⟩
  change _ = x ++ (_ ++ (empty ++ (empty ++ z)))
  rw [empty_append, empty_append]
  refine erase_layout hx valid positive z rfl ?_
  simp only [Place.head, Place.after, place, layout, layout_append, slots_append,
    List.length_append, empty, List.length_nil] at last ⊢
  omega

theorem chosen_ifElse {x : Arena} (hx : x.Within) {opener divider closer : Piece}
    {yes no : List Piece}
    (valid : ∀ p ∈ opener :: (yes ++ divider :: (no ++ [closer])), p.Valid) (z : Arena) :
    let b : Block :=
      ⟨x.place.head opener, some ((x.place.after (opener :: yes)).head divider),
        (x.place.after (opener :: (yes ++ divider :: no))).head closer⟩
    let a := x ++ (layout (opener :: (yes ++ divider :: (no ++ [closer]))) ++ z)
    Chosen x [opener] yes (divider :: (no ++ [closer])) z (b.choose true a) ∧
      Chosen x (opener :: (yes ++ [divider])) no [closer] z (b.choose false a) := by
  have first := Valid.slots_positive (valid opener (by simp))
  have middle := Valid.slots_positive (valid divider (by simp))
  have last := Valid.slots_positive (valid closer (by simp))
  have whole : opener :: (yes ++ divider :: (no ++ [closer])) =
      opener :: (yes ++ [divider]) ++ (no ++ [closer]) := by simp
  constructor
  · refine chosen_erase hx valid first ?_ z rfl rfl rfl ?_ <;>
      simp only [Place.head, Place.after, place, layout, layout_append, slots_append,
        List.length_append, empty, List.length_nil] at first middle last ⊢ <;>
      omega
  · rw [whole] at valid ⊢
    refine chosen_erase hx valid ?_ last z rfl ?_ ?_ ?_ <;>
      simp only [Place.head, Place.after, place, layout, layout_append, slots_append,
        List.length_append, empty, List.length_nil] at first middle last ⊢ <;>
      omega

/-- The loop does for the pieces of a script what the script says. -/
theorem walk_script {s : Script} (fits : s.Fits) (valid : ∀ p ∈ s.items, p.Valid) {x : Arena}
    (hx : x.Within) (z : Arena) (known : ∀ b ∈ s.blocks x.place,
      found.find? (fun x' => x'.opener.index == b.opener.index) = some b) :
    Agrees (Becomes x s.items z)
      (walk c inner depth found (x.place.regions s.items) (x ++ (layout s.items ++ z)))
      (s.run c inner depth) := by
  induction s generalizing x z with
  | done => exact .pure ⟨.empty, .empty, rfl⟩
  | leaf p next ih =>
    obtain ⟨hp, hn⟩ := List.forall_mem_cons.mp valid
    have split : layout (p :: next.items) ++ z = layout [p] ++ (layout next.items ++ z) := by
      rw [← Arena.append_assoc, ← layout_append, List.singleton_append]
    rw [Script.items, split]
    refine walk_seq (walk_piece hp fits.1 hx _) fun y _ settled => ?_
    refine ih fits.2 hn (hx.append settled.within) z ?_
    rw [settled.place_append]
    exact known
  | ifThen opener yes closer next ih_yes ih =>
    obtain ⟨ho, hy, _, hn⟩ := fits
    have whole : opener :: (yes.items ++ closer :: next.items) =
        opener :: (yes.items ++ [closer]) ++ next.items := by simp
    rw [Script.items, whole, List.forall_mem_append] at valid
    obtain ⟨block, rest⟩ := valid
    have valid_yes : ∀ p ∈ yes.items, p.Valid := fun p hp => block p (by simp [hp])
    simp only [Script.blocks, List.forall_mem_append, List.forall_mem_cons] at known
    obtain ⟨known_yes, own, known_next⟩ := known
    have chosen := chosen_ifThen hx block (layout next.items ++ z)
    have split : layout (opener :: (yes.items ++ closer :: next.items)) ++ z =
        layout (opener :: (yes.items ++ [closer])) ++ (layout next.items ++ z) := by
      rw [whole, layout_append, Arena.append_assoc]
    rw [Script.items, split]
    refine walk_block (block opener (by simp)) ho own ?_ ?_ <;> rintro (_ | _)
    · exact chosen.2.isVoid_opener block ho
    · exact chosen.1.isVoid_opener (by simpa using block opener (by simp)) ho
    · rw [if_neg Bool.false_ne_true]
      refine walk_chosen whole hx block (by simp) chosen.2
        (fun _ _ _ _ => .pure ⟨_, .empty, rfl⟩) fun y hy place => ih hn rest hy z ?_
      simpa [place] using known_next
    · rw [if_pos rfl]
      refine walk_chosen (by simp) hx (by simpa using block opener (by simp))
        (by simpa using block closer (by simp)) chosen.1
        (fun y w hy' place => ih_yes hy valid_yes hy' w ?_)
        fun y hy place => ih hn rest hy z ?_
      · exact place ▸ known_yes
      · exact place ▸ known_next
  | ifElse opener yes divider no closer next ih_yes ih_no ih =>
    obtain ⟨ho, hy, _, hno, _, hn⟩ := fits
    have whole : opener :: (yes.items ++ divider :: (no.items ++ closer :: next.items)) =
        opener :: (yes.items ++ divider :: (no.items ++ [closer])) ++ next.items := by simp
    rw [Script.items, whole, List.forall_mem_append] at valid
    obtain ⟨block, rest⟩ := valid
    have valid_yes : ∀ p ∈ yes.items, p.Valid := fun p hp => block p (by simp [hp])
    have valid_no : ∀ p ∈ no.items, p.Valid := fun p hp => block p (by simp [hp])
    have valid_opener := block opener (by simp)
    have valid_divider := block divider (by simp)
    have valid_closer := block closer (by simp)
    simp only [Script.blocks, List.forall_mem_append, List.forall_mem_cons] at known
    obtain ⟨known_yes, known_no, own, known_next⟩ := known
    have chosen := chosen_ifElse hx block (layout next.items ++ z)
    have split : layout (opener :: (yes.items ++ divider :: (no.items ++ closer :: next.items))) ++ z =
        layout (opener :: (yes.items ++ divider :: (no.items ++ [closer]))) ++
          (layout next.items ++ z) := by
      rw [whole, layout_append, Arena.append_assoc]
    rw [Script.items, split]
    refine walk_block valid_opener ho own ?_ ?_ <;> rintro (_ | _)
    · refine chosen.2.isVoid_opener (fun p hp => block p ?_) ho
      simp only [List.mem_cons, List.mem_append] at hp ⊢
      tauto
    · exact chosen.1.isVoid_opener (by simpa using valid_opener) ho
    · rw [if_neg Bool.false_ne_true]
      refine walk_chosen (by simp) hx (fun p hp => block p ?_) (by simpa using valid_closer)
        chosen.2 (fun y w hy' place => ih_no hno valid_no hy' w ?_)
        fun y hy place => ih hn rest hy z ?_
      · simp only [List.mem_cons, List.mem_append] at hp ⊢
        tauto
      · exact place ▸ known_no
      · simpa [place] using known_next
    · rw [if_pos rfl]
      refine walk_chosen (by simp) hx (by simpa using valid_opener) (fun p hp => block p ?_)
        chosen.1 (fun y w hy' place => ih_yes hy valid_yes hy' w ?_)
        fun y hy place => ih hn rest hy z ?_
      · simp only [List.mem_cons, List.mem_append] at hp ⊢
        tauto
      · exact place ▸ known_yes
      · simpa [place] using known_next

/-- One level of resolution does what the script of the template says. -/
theorem level_reads {s : Script} {t : Text} (h : s.Reads t) :
    Alike (level c inner depth t) (s.run c inner depth) := by
  obtain ⟨found, blocks, known⟩ := h.blocks
  have valid := h.separated.valid
  have walked : Agrees _ (walk c inner depth found _ _) _ :=
    walk_script h.fits valid within_empty .empty known
  have regions : Arena.empty.place.regions s.items = (layout s.items).regions := by
    change (layout s.items).regions.map (Region.shift 0 0) = _
    rw [Region.shift_zero, List.map_id]
  rw [regions, append_empty, empty_append] at walked
  rw [level, blocks, ← bind_pure (s.run c inner depth)]
  refine walked.bind ?_
  rintro _ shown ⟨y, settled, rfl⟩
  refine .pure ?_
  rw [append_empty, empty_append, settled.render]

end Resolve

end ChatCommands
