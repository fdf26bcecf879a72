import ChatCommands.Proofs.Resolution.Descent
import ChatCommands.Proofs.Template.Splicing

/-!
Arguments that hold no instruction.

An argument without an opening brace is used as it stands. One whose braces are all escaped is a
template without spans, and is rendered. The two ways differ in the escapes that they leave.
-/

namespace ChatCommands

section Unescape

variable {characters : Text}

theorem unescape_escaped (d : Char) (t : Text) : unescape characters ('\\' :: d :: t) =
    if d ∈ characters then d :: unescape characters t
    else '\\' :: d :: unescape characters t := by
  simp [unescape]

theorem unescape_of_absent {t : Text} (absent : ∀ c ∈ characters, c ∉ t) :
    unescape characters t = t := by
  induction t using Text.glyph_induction with
  | nil => rfl
  | lone => rfl
  | escaped d t ih =>
    have other : d ∉ characters := fun member =>
      absent d member (List.mem_cons_of_mem _ List.mem_cons_self)
    rw [unescape_escaped, if_neg other, ih fun c hc member =>
      absent c hc (List.mem_cons_of_mem _ (List.mem_cons_of_mem _ member))]
  | single c t hc ih =>
    rw [unescape_single hc, ih fun d hd member => absent d hd (List.mem_cons_of_mem _ member)]

theorem length_unescape_le (t : Text) : (unescape characters t).length ≤ t.length := by
  induction t using Text.glyph_induction with
  | nil => exact Nat.le_refl _
  | lone => exact Nat.le_refl _
  | escaped d t ih =>
    rw [unescape_escaped]
    split <;> simp only [List.length_cons] <;> omega
  | single c t hc ih =>
    rw [unescape_single hc]
    exact Nat.succ_le_succ ih

end Unescape

/-- Where all braces are escaped, the removal of escapes changes a text that has a brace. -/
theorem unescape_eq_self {t : Text} {k : Nat} (flat : Brace.ofTextAt k t = []) :
    unescape bracePair t = t ↔ ∀ c ∈ bracePair, c ∉ t := by
  refine ⟨fun same => ?_, unescape_of_absent⟩
  induction t using Text.glyph_induction generalizing k with
  | nil => exact fun _ _ => List.not_mem_nil
  | lone => simp [bracePair]
  | escaped d t ih =>
    rw [Brace.ofTextAt_escaped] at flat
    rw [unescape_escaped] at same
    by_cases brace : d ∈ bracePair
    · rw [if_pos brace] at same
      have short : (unescape bracePair t).length ≤ t.length := length_unescape_le t
      have long := congrArg List.length same
      simp only [List.length_cons] at long
      omega
    · rw [if_neg brace] at same
      have rest := ih flat (List.cons.inj (List.cons.inj same).2).2
      intro c hc member
      rcases List.mem_cons.mp member with rfl | member
      · exact absurd hc (by decide)
      rcases List.mem_cons.mp member with rfl | member
      · exact brace hc
      · exact rest c hc member
  | single c t hc ih =>
    by_cases opens : c = '{'
    · rw [opens, Brace.ofTextAt_open] at flat
      cases flat
    by_cases closes : c = '}'
    · rw [closes, Brace.ofTextAt_close] at flat
      cases flat
    rw [Brace.ofTextAt_plain k hc opens closes] at flat
    rw [unescape_single hc] at same
    have rest := ih flat (List.cons.inj same).2
    intro d hd member
    rcases List.mem_cons.mp member with rfl | member
    · simp only [bracePair, List.mem_cons, List.not_mem_nil, or_false] at hd
      exact hd.elim opens closes
    · exact rest d hd member

section Flat

variable {t : Text} (flat : Brace.ofText t = [])
include flat

theorem Arena.render_flat : (fresh t).regions = [] ∧ (fresh t).render = unescape bracePair t := by
  cases t with
  | nil => exact ⟨rfl, rfl⟩
  | cons c t =>
    rw [fresh_flat (List.cons_ne_nil c t) flat]
    exact ⟨rfl, List.append_nil _⟩

theorem Block.ofText_flat : Block.ofText t = .ok (.fresh t, []) := by
  have none : markers (.fresh t) = [] := by
    rw [markers, Arena.live, (Arena.render_flat flat).1]
    rfl
  refine ofText_eq_ok.mpr ⟨balanced_of_flat flat, rfl, ?_⟩
  rw [matchAll, none]
  rfl

namespace Descent

theorem level_flat (c : Context) (inner : Text → Descent Text) :
    level c inner t = pure (unescape bracePair t) := by
  obtain ⟨none, render⟩ := Arena.render_flat flat
  rw [level, Block.ofText_flat flat]
  simp only [none, walk, pure_bind, render]

theorem text_flat (c : Context) (levels : Nat) :
    text c levels t = pure (unescape bracePair t) := by
  cases levels with
  | zero => exact level_flat flat c _
  | succ levels => exact level_flat flat c _

theorem argument_flat (c : Context) (d : Depth) (start : Run) :
    (argument c t).outcome d start =
      if '{' ∉ t then ((.ok t, d), start)
      else if maxNestedInstructions ≤ d.now then
        ((.error (.template (.instruction (.tooDeep maxNestedInstructions))), d), start)
      else ((.ok (unescape bracePair t), d.descend.ascend), start) := by
  rw [argument, Resolve.argument]
  by_cases opens : '{' ∈ t
  · rw [if_pos opens, if_neg (not_not_intro opens), outcome_deeper, text_flat flat]
    rfl
  · rw [if_neg opens, if_pos opens]
    rfl

/-- An argument without an unescaped brace changes nothing and counts nothing. It comes out without
its escapes exactly if it has no brace at all, or has an opening one and may be entered. -/
theorem argument_escaped (c : Context) (d : Depth) (start : Run) :
    let ((result, d'), final) := (argument c t).outcome d start
    final = start ∧ d'.now = d.now ∧
    (result = .ok (unescape bracePair t) ↔
      if '{' ∈ t then d.now < maxNestedInstructions else '}' ∉ t) ∧
    ('{' ∉ t → result = .ok t) ∧
    ('{' ∈ t → maxNestedInstructions ≤ d.now →
      result = .error (.template (.instruction (.tooDeep maxNestedInstructions)))) := by
  rw [argument_flat flat]
  by_cases opens : '{' ∈ t
  · rw [if_neg (not_not_intro opens), if_pos opens]
    by_cases full : maxNestedInstructions ≤ d.now
    · rw [if_pos full]
      refine ⟨rfl, rfl, iff_of_false nofun (Nat.not_lt_of_le full), absurd opens, fun _ _ => rfl⟩
    · rw [if_neg full]
      refine ⟨rfl, rfl, iff_of_true rfl (Nat.lt_of_not_le full), absurd opens, ?_⟩
      exact fun _ other => absurd other full
  · rw [if_pos opens, if_neg opens]
    refine ⟨rfl, rfl, ?_, fun _ => rfl, fun other => absurd other opens⟩
    have braces : (∀ c ∈ bracePair, c ∉ t) ↔ '{' ∉ t ∧ '}' ∉ t := by simp [bracePair]
    rw [Except.ok.injEq, eq_comm, unescape_eq_self flat, braces]
    exact and_iff_right opens

end Descent

end Flat

namespace Descent

/-- An escaped opening brace in the last argument that may be entered. -/
theorem argument_escaped_open :
    let raw := "a\\\x7bb".toList
    let start : Run := .start ⟨[], [], [], [], [], none⟩
    Brace.ofText raw = [] ∧
      ((argument .bare raw).outcome ⟨49, 49⟩ start).1.1 = .ok "a\x7bb".toList := by
  intro raw start
  have flat : Brace.ofText raw = [] := rfl
  have escaped := argument_escaped flat .bare ⟨49, 49⟩ start
  exact ⟨flat, escaped.2.2.1.mpr (by decide)⟩

/-- Where a closing brace is the only one, it keeps its backslash. -/
theorem argument_keeps_escape :
    ¬ ∀ (c : Context) (raw : Text) (d : Depth) (start : Run), Brace.ofText raw = [] →
      d.now ≤ maxNestedInstructions →
        ((argument c raw).outcome d start).1.1 = .ok (unescape bracePair raw) := by
  intro claim
  have escaped := claim .bare "a\\\x7db".toList .top (.start ⟨[], [], [], [], [], none⟩) rfl
    (Nat.zero_le _)
  cases escaped

end Descent

end ChatCommands
