import ChatCommands.Bot.Embed
import ChatCommands.Proofs.Number.Quotient

/-!
The pages of the list of commands.

The number of pages goes through a floating point quotient, which is exact for every list that is
shorter than the integers a mantissa holds. So the pages are the list cut every ten commands: none
is left out, none comes twice, and no page beyond the first is empty.
-/

namespace ChatCommands

namespace Text

end Text

namespace Contents

/-- The list of a server has its commands, each once, by name. -/
theorem list_perm (s : Contents) (server : Int) :
    (s.list server).Perm (s.commands.filter fun c => c.server == server) :=
  List.mergeSort_perm _ _

end Contents

namespace Embed

/-- Rounding up is exact although the quotient is rounded to a floating point number first. -/
theorem ceilQuotient_eq {num den : Nat} (small : num < 2 ^ 53) (positive : 0 < den)
    (small' : den < 2 ^ 53) :
    ceilQuotient num den = .ok (num / den + if num % den = 0 then 0 else 1) := by
  have signs : (decide ((num : Int) < 0) != decide ((den : Int) < 0)) = false := by
    rw [decide_eq_false (by omega), decide_eq_false (by omega)]
    rfl
  rw [ceilQuotient, if_neg (by omega), signs, Int.natAbs_natCast, Int.natAbs_natCast]
  obtain ⟨mantissa, k, rounded, quotient, rest⟩ := Binary64.ofRatio_parts small positive small'
  simp only [rounded, Binary64.truncate_finite, Binary64.isInteger_finite, quotient,
    Bool.or_false]
  by_cases whole : num % den = 0
  · rw [if_pos whole, if_pos (by simpa using rest.mpr whole)]
    simp
  · rw [if_neg whole, if_neg (by simpa using mt rest.mp whole)]
    simp

/-- The pages hold all the commands, and without the last one they would not. -/
theorem pageCount_eq {count : Nat} (small : count < 2 ^ 53) :
    ∃ pages : Nat, pageCount count commandsPerPage = .ok pages ∧ 1 ≤ pages ∧
      count ≤ pages * commandsPerPage ∧ (pages - 1) * commandsPerPage ≤ count - 1 := by
  refine ⟨max 1 ((count + 9) / 10), ?_, Nat.le_max_left _ _, ?_, ?_⟩
  · rw [pageCount, commandsPerPage, ceilQuotient_eq small (by decide) (by decide), Except.map]
    congr 1
    split <;> split <;> omega
  · rw [commandsPerPage]
    omega
  · rw [commandsPerPage]
    omega

/-- The commands on the first pages, one page behind the other. -/
def shownOn (commands : List Command) (pages : Nat) : List Command :=
  (List.range pages).flatMap fun (k : Nat) => pageOf commands (k + 1)

/-- What the pages of a list show, where it has this many. -/
structure Paged (commands : List Command) (pages : Nat) : Prop where
  fields : ∀ page, (list commands page).fields = (pageOf commands page).map commandField
  few : ∀ page, (pageOf commands page).length ≤ 10
  tiled : shownOn commands pages = commands
  filled : commands ≠ [] → ∀ page, pageOf commands page ≠ []
  first : ∀ page < 1, list commands page = list commands 1
  last : ∀ page > (pages : Int), list commands page = list commands pages

section Pages

variable {commands : List Command} {pages : Nat} (counted : pagesOf commands = pages)
  (some : 1 ≤ pages)

/-- A page shows what its number shows when it is brought between the first and the last. -/
theorem list_congr {page page' : Int}
    (same : clampPage page (pagesOf commands) = clampPage page' (pagesOf commands)) :
    list commands page = list commands page' := by
  unfold list pageOf
  dsimp only
  rw [same]

include counted some

theorem pageOf_clamped (page : Int) : ∃ k < pages,
    pageOf commands page = (commands.drop (k * commandsPerPage)).take commandsPerPage := by
  refine ⟨(clampPage page pages - 1).toNat, ?_, ?_⟩
  · unfold clampPage
    split <;> (try split) <;> omega
  · simp only [pageOf, counted]
    congr 2
    unfold clampPage commandsPerPage
    split <;> (try split) <;> omega

omit some in
theorem pageOf_succ {k : Nat} (inside : k < pages) :
    pageOf commands (k + 1) = (commands.drop (k * commandsPerPage)).take commandsPerPage := by
  have whole : clampPage ((k : Int) + 1) pages = k + 1 := by
    unfold clampPage
    split <;> (try split) <;> omega
  simp only [pageOf, counted, whole]
  congr 2
  unfold commandsPerPage
  omega

omit some in
theorem shownOn_eq_take {count : Nat} (inside : count ≤ pages) :
    shownOn commands count = commands.take (count * commandsPerPage) := by
  induction count with
  | zero => rw [shownOn, Nat.zero_mul, List.take_zero, List.range_zero, List.flatMap_nil]
  | succ count ih =>
    rw [shownOn, List.range_succ, List.flatMap_append, List.flatMap_singleton, ← shownOn,
      ih (by omega), pageOf_succ counted inside, Nat.succ_mul, List.take_add]

theorem paged (all : commands.length ≤ pages * commandsPerPage)
    (needed : (pages - 1) * commandsPerPage ≤ commands.length - 1) : Paged commands pages := by
  constructor
  · exact fun page => rfl
  · exact fun page => List.length_take_le _ _
  · rw [shownOn_eq_take counted (Nat.le_refl _), List.take_of_length_le all]
  · intro nonempty page
    obtain ⟨k, inside, cut⟩ := pageOf_clamped counted some page
    have positive := List.length_pos_iff.mpr nonempty
    have reach : k * commandsPerPage ≤ (pages - 1) * commandsPerPage :=
      Nat.mul_le_mul_right _ (by omega)
    rw [cut, ← List.length_pos_iff, List.length_take, List.length_drop, commandsPerPage]
    rw [commandsPerPage] at reach needed
    omega
  · intro page below
    refine list_congr ?_
    rw [counted, clampPage, clampPage, if_pos below, if_neg (by omega), if_neg (by omega)]
  · intro page above
    refine list_congr ?_
    rw [counted, clampPage, clampPage, if_neg (by omega), if_pos above, if_neg (by omega),
      if_neg (by omega)]

end Pages

theorem exists_paged {commands : List Command} (small : commands.length < 2 ^ 53) :
    ∃ pages : Nat, pageCount commands.length commandsPerPage = .ok pages ∧
      Paged commands pages := by
  obtain ⟨pages, counted, some, all, needed⟩ := pageCount_eq small
  have known : pagesOf commands = pages := by
    rw [pagesOf, counted]
  exact ⟨pages, counted, paged known some all needed⟩

end Embed

end ChatCommands
