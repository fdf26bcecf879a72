import ChatCommands.Proofs.Template.Joining
import ChatCommands.Proofs.Template.Parts
import ChatCommands.Proofs.Resolution.Structured

/-!
The resolution of a template put together from others.
-/

namespace ChatCommands

open Piece Resolve

/-- A server where nothing has a name. -/
def Context.bare : Context where
  snapshot := {
    args := [], user := ⟨.null, [], [], [], [], [], false⟩,
    server := ⟨.null, .null, 0, none, .null, .null, none, none, none, [], [], [], []⟩,
    channel := ⟨.null, [], [], .null⟩, uptime := .finite false 0 0 }
  maxSteps := 1000
  requestsEnabled := true

namespace Script

variable (c : Context) (inner : Text → Resolve Text) (depth : Nat)

theorem run_glue {u : Text} (whole : u.dangling = false) (s : Script) :
    (s.glue u).run c inner depth = (do
      let rest ← s.run c inner depth
      return unescape bracePair u ++ rest) := by
  unfold glue
  split
  · simp only [run, Piece.run, pure_bind, unescape_append whole, bind_assoc, List.append_assoc]
  · simp only [run, Piece.run, pure_bind]

theorem run_join {s : Script} (whole : ∀ u, .plain u ∈ s.items → u.dangling = false)
    (s' : Script) :
    (s.join s').run c inner depth = (do
      let shown ← s.run c inner depth
      let rest ← s'.run c inner depth
      return shown ++ rest) := by
  induction s with
  | done => simp only [join, run, pure_bind, List.nil_append, bind_pure]
  | leaf p next ih =>
    have rest := ih fun u member => whole u (List.mem_cons_of_mem _ member)
    cases p with
    | plain u =>
      rw [join, run_glue c inner depth (whole u (by simp [items])), rest]
      simp only [run, Piece.run, pure_bind, bind_assoc, List.append_assoc]
    | span body => simp only [join, run, rest, bind_assoc, pure_bind, List.append_assoc]
  | ifThen opener yes closer next _ ih =>
    have rest := ih fun u member => whole u (by simp [items, member])
    simp only [join, run, rest, bind_assoc, pure_bind]
    refine bind_congr fun holds => ?_
    cases holds <;> simp [-bind_pure_comp]
  | ifElse opener yes divider no closer next _ _ ih =>
    have rest := ih fun u member => whole u (by simp [items, member])
    simp only [join, run, rest, bind_assoc, pure_bind]
    refine bind_congr fun holds => ?_
    cases holds <;> simp [-bind_pure_comp]

end Script

namespace Resolve

/-- The resolver of what is nested in arguments, where `levels` more are allowed. -/
def nested (c : Context) : Nat → Text → Resolve Text
  | 0 => fun _ => refuse (.tooDeep maxNestedInstructions)
  | levels + 1 => text c levels

theorem text_eq_level (c : Context) (levels : Nat) :
    text c levels = level c (nested c levels) (maxNestedInstructions - levels) := by
  cases levels <;> rfl

theorem text_reads {s : Script} {t : Text} (h : s.Reads t) (c : Context) (levels : Nat) :
    Alike (text c levels t) (s.run c (nested c levels) (maxNestedInstructions - levels)) := by
  rw [text_eq_level]
  exact level_reads h

/-- Two accepted templates, one behind the other, are resolved one after the other. -/
theorem text_append (c : Context) (levels : Nat) {s t : Text} (hs : Accepted s) (ht : Accepted t)
    (whole : s.dangling = false) :
    Alike (text c levels (s ++ t)) (do
      let shown ← text c levels s
      let rest ← text c levels t
      return shown ++ rest) := by
  obtain ⟨first, reads⟩ := Script.exists_reads hs
  obtain ⟨second, reads'⟩ := Script.exists_reads ht
  have pieces := reads.separated.whole (reads.text.symm ▸ whole)
  refine (text_reads (reads.join reads' whole) c levels).trans ?_
  rw [Script.run_join _ _ _ pieces]
  exact .bind (text_reads reads c levels).symm fun _ =>
    .bind (text_reads reads' c levels).symm fun _ => .refl _

theorem text_append_block : Alike
    (text .bare 50 ("\x7bif;a\x7db\x7bfi\x7d".toList ++ "c\x7bd\x7d".toList)) (do
      let shown ← text .bare 50 "\x7bif;a\x7db\x7bfi\x7d".toList
      let rest ← text .bare 50 "c\x7bd\x7d".toList
      return shown ++ rest) :=
  text_append .bare 50 ⟨_, _, rfl⟩ ⟨_, _, rfl⟩ rfl

/-- The span that opens a block. -/
def opening (condition : Text) : Text :=
  Text.braced ("if;".toList ++ condition)

def dividing : Text :=
  Text.braced "else".toList

def closing : Text :=
  Text.braced "fi".toList

theorem cutParts_opening (condition : Text) :
    cutParts 0 ("if;".toList ++ condition) = ("if".toList, splitArguments condition) := by
  have letters : "if;".toList ++ condition = 'i' :: 'f' :: ';' :: condition := rfl
  have first : depthAfter 0 'i' = 0 := rfl
  have second : depthAfter 0 'f' = 0 := rfl
  rw [letters, cutParts_single 0 (by decide) (by decide), first,
    cutParts_single 0 (by decide) (by decide), second, cutParts_semicolon]
  rfl

theorem marker_opening (condition : Text) :
    (Piece.span ("if;".toList ++ condition)).marker? = some .opens := by
  rw [marker?, markerOf, Instruction.decode_braced, cutParts_opening]
  rfl

theorem rest_opening (condition : Text) :
    (Instruction.decode (opening condition)).rest 0 = condition := by
  rw [opening, Instruction.decode_braced, cutParts_opening]
  exact join_cutParts 0 condition

/-- A condition in braces that are balanced ends in no backslash that would escape the last. -/
theorem closed_opening {condition : Text} (h : Balanced condition)
    (whole : Balanced (opening condition)) : Closed ("if;".toList ++ condition) := by
  obtain ⟨s, hs, rfl | rfl⟩ := h
  · exact (closed_of_flat rfl rfl).append hs
  · have front : Closed ("if;".toList ++ s) := (closed_of_flat rfl rfl).append hs
    have assoc : opening (s ++ ['\\']) = '{' :: ("if;".toList ++ s ++ ['\\', '}']) := by
      simp [opening, Text.braced]
    rw [balanced_iff, assoc, Brace.ofText, Brace.ofTextAt_open, imbalance,
      Brace.ofTextAt_append _ front.whole, front.imbalance_append] at whole
    simp [imbalance] at whole

theorem reads_ifElse {condition : Text} (closed : Closed ("if;".toList ++ condition))
    (accepted : Accepted condition) {yes no : Script} {s t : Text} (hs : yes.Reads s)
    (ht : no.Reads t) (whole : s.dangling = false) (whole' : t.dangling = false) :
    (Script.ifElse (.span ("if;".toList ++ condition)) yes (.span "else".toList) no
      (.span "fi".toList) .done).Reads (opening condition ++ s ++ dividing ++ t ++ closing) := by
  have divides : Closed "else".toList := closed_of_flat rfl rfl
  have closes : Closed "fi".toList := closed_of_flat rfl rfl
  constructor
  · refine .span closed (hs.separated.append_span (hs.text.symm ▸ whole) (.span divides ?_))
    exact ht.separated.append_span (ht.text.symm ▸ whole') (.span closes .nil)
  · simp [Script.items, Piece.text, hs.text, ht.text, opening, dividing, closing]
  · exact ⟨marker_opening condition, hs.fits, rfl, ht.fits, rfl, trivial⟩
  · intro inner member
    simp only [Script.items, List.mem_cons, List.mem_append, Piece.span.injEq,
      List.not_mem_nil, or_false] at member
    rcases member with rfl | member | rfl | member | rfl
    · exact (accepted_append_flat rfl rfl).mpr accepted
    · exact hs.inside inner member
    · exact accepted_flat rfl rfl
    · exact ht.inside inner member
    · exact accepted_flat rfl rfl

theorem reads_ifThen {condition : Text} (closed : Closed ("if;".toList ++ condition))
    (accepted : Accepted condition) {yes : Script} {s : Text} (hs : yes.Reads s)
    (whole : s.dangling = false) :
    (Script.ifThen (.span ("if;".toList ++ condition)) yes (.span "fi".toList) .done).Reads
      (opening condition ++ s ++ closing) := by
  have closes : Closed "fi".toList := closed_of_flat rfl rfl
  constructor
  · exact .span closed (hs.separated.append_span (hs.text.symm ▸ whole) (.span closes .nil))
  · simp [Script.items, Piece.text, hs.text, opening, closing]
  · exact ⟨marker_opening condition, hs.fits, rfl, trivial⟩
  · intro inner member
    simp only [Script.items, List.mem_cons, List.mem_append, Piece.span.injEq,
      List.not_mem_nil, or_false] at member
    rcases member with rfl | member | rfl
    · exact (accepted_append_flat rfl rfl).mpr accepted
    · exact hs.inside inner member
    · exact accepted_flat rfl rfl

/-- What a block does: it counts the span that opens it, evaluates the condition, and resolves the
branch that is taken. -/
def branch (c : Context) (levels : Nat) (condition yes no : Text) : Resolve Text := do
  count c (maxNestedInstructions - levels) (Instruction.decode (opening condition)) .empty
  let value ← argument (nested c levels) condition
  let holds ← ofCrash ((← scope c).holds value)
  if holds then text c levels yes else text c levels no

theorem test_opening (c : Context) (levels : Nat) (condition : Text) {shown : Bool → Resolve Text}
    {yes no : Text} (taken : Alike (shown true) (text c levels yes))
    (other : Alike (shown false) (text c levels no)) :
    Alike (do
      let holds ← (Piece.span ("if;".toList ++ condition)).test c (nested c levels)
        (maxNestedInstructions - levels)
      shown holds) (branch c levels condition yes no) := by
  rw [Piece.test, branch, Piece.text, ← opening, Resolve.condition, rest_opening]
  simp only [bind_assoc]
  refine .bind (.refl _) fun _ => .bind (.refl _) fun _ => .bind (.refl _) fun _ => ?_
  refine .bind (.refl _) fun holds => ?_
  cases holds
  · exact other
  · exact taken

theorem run_last (x : Resolve Text) (c : Context) (inner : Text → Resolve Text) (depth : Nat) :
    (do
      let shown ← x
      let rest ← Script.done.run c inner depth
      return shown ++ rest) = x := by
  simp [Script.run]

/-- A block is resolved as its condition and the branch that is taken, and without `else` as with
an empty one. -/
theorem text_block (c : Context) (levels : Nat) {condition yes no : Text} {inside : List Span}
    (single : Span.scan (opening condition) =
      .ok (⟨0, (opening condition).length, none, 0⟩ :: inside))
    (accepted : Accepted condition) (hyes : Accepted yes) (hno : Accepted no)
    (whole : yes.dangling = false) (whole' : no.dangling = false) :
    Alike (text c levels (opening condition ++ yes ++ dividing ++ no ++ closing))
        (branch c levels condition yes no) ∧
      Alike (text c levels (opening condition ++ yes ++ closing))
        (text c levels (opening condition ++ yes ++ dividing ++ [] ++ closing)) := by
  have closed := closed_opening accepted.balanced (scan_eq_ok.mp single).1
  obtain ⟨s, hs⟩ := Script.exists_reads hyes
  have taken := (text_reads hs c levels).symm
  have withElse {no : Text} (hno : Accepted no) (whole' : no.dangling = false) :
      Alike (text c levels (opening condition ++ yes ++ dividing ++ no ++ closing))
        (branch c levels condition yes no) := by
    obtain ⟨s', hs'⟩ := Script.exists_reads hno
    refine (text_reads (reads_ifElse closed accepted hs hs' whole whole') c levels).trans ?_
    rw [Script.run]
    refine test_opening c levels condition ?_ ?_ <;> rw [run_last]
    · exact taken
    · exact (text_reads hs' c levels).symm
  have withoutElse : Alike (text c levels (opening condition ++ yes ++ closing))
      (branch c levels condition yes []) := by
    have empty : Script.done.Reads [] := ⟨.nil, rfl, trivial, by simp [Script.items]⟩
    refine (text_reads (reads_ifThen closed accepted hs whole) c levels).trans ?_
    rw [Script.run]
    refine test_opening c levels condition ?_ ?_ <;> rw [run_last]
    · exact taken
    · exact (text_reads empty c levels).symm
  exact ⟨withElse hno whole', withoutElse.trans (withElse accepted_nil rfl).symm⟩

theorem text_block_nested :
    let condition := "\x7bx\x7d = 1".toList
    let yes := "a\x7bif;b\x7dc\x7bfi\x7d".toList
    let no := "\x7by\x7d".toList
    Alike (text .bare 50 (opening condition ++ yes ++ dividing ++ no ++ closing))
        (branch .bare 50 condition yes no) ∧
      Alike (text .bare 50 (opening condition ++ yes ++ closing))
        (text .bare 50 (opening condition ++ yes ++ dividing ++ [] ++ closing)) :=
  text_block .bare 50 rfl ⟨_, _, rfl⟩ ⟨_, _, rfl⟩ ⟨_, _, rfl⟩ rfl rfl

end Resolve

end ChatCommands
