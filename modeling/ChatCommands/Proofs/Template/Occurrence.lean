import ChatCommands.Proofs.Template.Layout
import ChatCommands.Proofs.Template.Parts

/-!
Spans of a template that are met from left to right, each with its text and the nesting depth.

Where a text is put together from closed parts, spans of the parts that are taken from left to
right are spans of the whole. Inside a pair of braces everything lies one level deeper.
-/

namespace ChatCommands

open Span

/-- The text of a span and the depth at which it lies. -/
abbrev Site := Text × Nat

namespace Span

/-- The texts of the spans of a text, in the order of their starts. -/
def texts (t : Text) : List Text :=
  (spans t).map fun s => s.text t

/-- The spans of a text that lies at a depth, in the order of their starts. -/
def sites (depth : Nat) (t : Text) : List Site :=
  (spans t).map fun s => (s.text t, depth + s.depth)

end Span

/-- Whether these are some spans of a text that lies at a depth, in the order of their starts. -/
def Occurs (depth : Nat) (xs : List Site) (t : Text) : Prop :=
  xs = [] ∨ Balanced t ∧ xs.Sublist (sites depth t)

/-- Whether these are spans of some texts that are visited from left to right. A text whose
braces are not balanced has none. -/
inductive Inscribed (depth : Nat) : List Text → List Site → Prop where
  | nil (ts : List Text) : Inscribed depth ts []
  | here {t : Text} {ts : List Text} {xs ys : List Site} : Balanced t →
      Occurs depth xs t → Inscribed depth ts ys → Inscribed depth (t :: ts) (xs ++ ys)
  | skip {t : Text} {ts : List Text} {ys : List Site} : Inscribed depth ts ys →
      Inscribed depth (t :: ts) ys

variable {depth : Nat}

namespace Span

theorem texts_eq (depth : Nat) (t : Text) : texts t = (sites depth t).map Prod.fst := by
  rw [sites, List.map_map]
  rfl

theorem sites_append {s t : Text} (hs : Closed s) (ht : Balanced t) :
    sites depth (s ++ t) = sites depth s ++ sites depth t := by
  rw [sites, spans_append hs ht, List.map_append, List.map_map]
  congr 1
  · apply List.map_congr_left
    intro a ha
    rw [text_append_left (hs.ordered.within a ha).2]
  · apply List.map_congr_left
    intro a _
    rw [Function.comp_apply, text_under]
    rfl

theorem sites_flat {u : Text} (flat : Brace.ofText u = []) : sites depth u = [] := by
  rw [sites, spans_flat flat, List.map_nil]

theorem sites_lone {s : Text} (hs : Closed s) : sites depth (s ++ ['\\']) = sites depth s := by
  have lone : sites depth ['\\'] = [] := sites_flat rfl
  rw [sites_append hs (balanced_of_flat rfl), lone, List.append_nil]

theorem sites_braced {inner : Text} (h : Closed inner) :
    sites depth (Text.braced inner) = (Text.braced inner, depth) :: sites (depth + 1) inner := by
  rw [sites, spans_span h, List.map_cons, text_whole, List.map_map]
  congr 1
  apply List.map_congr_left
  intro a ha
  have deeper : depth + (a.under [0] 1 1).depth = depth + 1 + a.depth := by
    rw [under, List.length_singleton, Nat.add_comm a.depth, Nat.add_assoc]
  rw [Function.comp_apply, text_braced (h.ordered.within a ha).2, deeper]

theorem texts_append {s t : Text} (hs : Closed s) (ht : Balanced t) :
    texts (s ++ t) = texts s ++ texts t := by
  simp only [texts_eq 0, sites_append hs ht, List.map_append]

theorem texts_flat {u : Text} (flat : Brace.ofText u = []) : texts u = [] := by
  rw [texts_eq 0, sites_flat flat, List.map_nil]

theorem texts_lone {s : Text} (hs : Closed s) : texts (s ++ ['\\']) = texts s := by
  rw [texts_eq 0, sites_lone hs, texts_eq 0]

theorem texts_braced {inner : Text} (h : Closed inner) :
    texts (Text.braced inner) = Text.braced inner :: texts inner := by
  rw [texts_eq 0, sites_braced h, List.map_cons, texts_eq (0 + 1)]

end Span

namespace Occurs

theorem none (t : Text) : Occurs depth [] t :=
  .inl rfl

theorem sublist {t : Text} {xs : List Site} (h : Occurs depth xs t) :
    xs.Sublist (sites depth t) := by
  rcases h with rfl | ⟨_, h⟩
  · exact List.nil_sublist _
  · exact h

theorem append {s t : Text} (hs : Closed s) (ht : Balanced t) {xs ys : List Site}
    (first : Occurs depth xs s) (second : Occurs depth ys t) :
    Occurs depth (xs ++ ys) (s ++ t) := by
  refine .inr ⟨hs.append_balanced ht, ?_⟩
  rw [sites_append hs ht]
  exact first.sublist.append second.sublist

theorem behind {s t : Text} (hs : Closed s) (ht : Balanced t) {ys : List Site}
    (h : Occurs depth ys t) : Occurs depth ys (s ++ t) :=
  append hs ht (none s) h

theorem before {s t : Text} (hs : Closed s) (ht : Balanced t) {xs : List Site}
    (h : Occurs depth xs s) : Occurs depth xs (s ++ t) := by
  have all := append hs ht h (none t)
  rwa [List.append_nil] at all

theorem of_lone {s : Text} (hs : Closed s) {xs : List Site}
    (h : Occurs depth xs (s ++ ['\\'])) : Occurs depth xs s := by
  have sub := h.sublist
  rw [sites_lone hs] at sub
  exact .inr ⟨hs.balanced, sub⟩

theorem span {inner : Text} (h : Closed inner) {xs : List Site}
    (inside : Occurs (depth + 1) xs inner) :
    Occurs depth ((Text.braced inner, depth) :: xs) (Text.braced inner) := by
  refine .inr ⟨h.span.balanced, ?_⟩
  rw [sites_braced h]
  exact inside.sublist.cons_cons _

theorem matched {t : Text} {xs : List Site} (h : Occurs depth xs t) : xs = [] ∨
    ∃ found matched : List Span, scan t = .ok found ∧ matched.Sublist found ∧
      matched.Pairwise (fun a b => a.start < b.start) ∧
        xs = matched.map fun s => (s.text t, depth + s.depth) := by
  refine h.imp_right ?_
  rintro ⟨balanced, sub⟩
  obtain ⟨matched, inside, same⟩ := List.sublist_map_iff.mp sub
  exact ⟨_, matched, balanced.scan_eq, inside, balanced.ordered.sorted.sublist inside, same⟩

end Occurs

namespace Inscribed

theorem append {ss ts : List Text} {xs ys : List Site} (first : Inscribed depth ss xs)
    (second : Inscribed depth ts ys) : Inscribed depth (ss ++ ts) (xs ++ ys) := by
  induction first with
  | nil ss =>
    induction ss with
    | nil => exact second
    | cons s ss ih => exact .skip ih
  | here balanced inside _ ih =>
    rw [List.cons_append, List.append_assoc]
    exact .here balanced inside ih
  | skip _ ih => exact .skip ih

theorem mono {ss ts : List Text} {xs : List Site} (h : Inscribed depth ss xs)
    (sub : ss.Sublist ts) : Inscribed depth ts xs := by
  induction sub generalizing xs with
  | slnil => exact h
  | cons t _ ih => exact .skip (ih h)
  | cons_cons t _ ih =>
    cases h with
    | nil => exact .nil _
    | here balanced inside rest => exact .here balanced inside (ih rest)
    | skip rest => exact .skip (ih rest)

theorem single {t : Text} {xs : List Site} : Inscribed depth [t] xs ↔ Occurs depth xs t := by
  constructor
  · intro h
    cases h with
    | nil => exact .none t
    | @here _ _ xs _ _ inside rest =>
      cases rest
      rwa [List.append_nil]
    | skip rest =>
      cases rest
      exact .none t
  · rintro (rfl | ⟨balanced, sub⟩)
    · exact .nil _
    · have here : Inscribed depth [t] (xs ++ []) := .here balanced (.inr ⟨balanced, sub⟩) (.nil [])
      rwa [List.append_nil] at here

theorem cons_occurs {s t : Text} {ts : List Text} {xs : List Site} (hs : Closed s) (ht : Balanced t)
    (rest : ∀ ys, Inscribed depth ts ys → Occurs depth ys t) (h : Inscribed depth (s :: ts) xs) :
    Occurs depth xs (s ++ t) := by
  cases h with
  | nil => exact .none _
  | here _ inside later => exact inside.append hs ht (rest _ later)
  | skip later => exact (rest _ later).behind hs ht

theorem join {ts : List Text} {xs : List Site} (closed : ∀ t ∈ ts, Closed t)
    (h : Inscribed depth ts xs) : Occurs depth xs (Text.join [';'] ts) := by
  induction ts generalizing xs with
  | nil =>
    cases h
    exact .none _
  | cons t ts ih =>
    obtain ⟨ht, hts⟩ := List.forall_mem_cons.mp closed
    cases ts with
    | nil =>
      have alone : Text.join [';'] [t] = t := by simp [Text.join, List.intercalate]
      rw [alone]
      exact single.mp h
    | cons q ts =>
      have mark : Closed [';'] := .plain (by decide) (by decide) (by decide) .nil
      have rest := (closed_join hts).balanced
      rw [join_cons]
      exact cons_occurs ht (mark.append_balanced rest) (fun ys later =>
        (ih hts later).behind mark rest) h

/-- Spans of the two sides of an equals sign are spans of the text, wherever the sign stands. -/
theorem sides {name value : Text} (h : Closed (name ++ '=' :: value)) {xs : List Site}
    (inside : Inscribed depth [name, value] xs) : Occurs depth xs (name ++ '=' :: value) := by
  have assoc : name ++ '=' :: value = name ++ ['='] ++ value := by simp
  have whole : Text.dangling (name ++ ['=']) = false := Text.dangling_snoc name (by decide)
  rw [assoc] at h ⊢
  cases inside with
  | nil => exact .none _
  | @here _ _ xs ys balanced first later =>
    have front : Closed (name ++ ['=']) ∧ Occurs depth xs (name ++ ['=']) := by
      obtain ⟨s, hs, rfl | rfl⟩ := balanced
      · have sign : Closed ['='] := closed_of_flat rfl rfl
        exact ⟨hs.append sign, first.before hs sign.balanced⟩
      · have sign : Closed ['\\', '='] := closed_of_flat rfl rfl
        rw [List.append_assoc]
        exact ⟨hs.append sign, (first.of_lone hs).before hs sign.balanced⟩
    exact front.2.append front.1 (front.1.balanced_of_append h.balanced) (single.mp later)
  | skip later =>
    rcases single.mp later with rfl | ⟨balanced, sub⟩
    · exact .none _
    · have closed : Closed value := balanced.closed (by
        rw [← Text.dangling_append whole, h.whole])
      have front := (closed.balanced_front whole h.balanced).closed whole
      exact Occurs.behind front balanced (.inr ⟨balanced, sub⟩)

end Inscribed

theorem Piece.Separated.occurs {ps : List Piece} (h : Separated ps) {xs : List Site}
    (inside : Inscribed depth (ps.map Piece.text) xs) : Occurs depth xs (textOf ps) := by
  induction h generalizing xs with
  | nil =>
    cases inside
    exact .none _
  | @last u _ _ =>
    rw [textOf_cons, textOf_nil, List.append_nil]
    exact Inscribed.single.mp inside
  | plain _ flat whole hs ih =>
    exact Inscribed.cons_occurs (closed_of_flat flat whole) hs.balanced (fun _ => ih) inside
  | span hi hs ih => exact Inscribed.cons_occurs hi.span hs.balanced (fun _ => ih) inside

end ChatCommands
