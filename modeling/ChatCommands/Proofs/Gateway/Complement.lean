import ChatCommands.Proofs.Gateway.Membership

/-!
The two permission gates are opposites.

Both refuse a blank requirement. What the server lacks stops the one and lets pass the other. In
every other case one of them lets the author pass and the other denies, whatever roles and channels
there are and whatever these are called.
-/

namespace ChatCommands

theorem Scalar.same_text_iff (a : Scalar) (t : Text) : a.same (.text t) = true ↔ a = .text t := by
  cases a with
  | text s => simp only [same, beq_iff_eq, text.injEq]
  | null | bool _ | int _ | float _ => simp [same, numeric?]

namespace Requirement

variable {t : Text}

theorem ofText?_moderator (written : Text.strip t = moderatorWord) :
    ofText? t = some .moderator := by
  unfold ofText?
  rw [written]
  rfl

theorem ofText?_blank (blank : Text.blank t = true) : ofText? t = none := by
  have nothing : Text.strip t = [] := List.isEmpty_iff.mp blank
  simp only [ofText?, nothing]

/-- What a text requires and the server does not have. A role is none of the special forms, so one
whose name is such a form is never required. -/
inductive Lacking (s : Server) (t : Text) : Absence → Prop where
  | channel {name : Text} (written : Text.strip t = '#' :: name)
      (unknown : ∀ c ∈ s.channels, c.type = "text".toList → c.name ≠ name) :
      Lacking s t (.channel name)
  | role (written : Text.strip t ≠ []) (other : Text.strip t ≠ moderatorWord)
      (unmarked : (Text.strip t).head? ≠ some '#')
      (unknown : ∀ r ∈ s.roles, r.name ≠ .text (Text.strip t)) :
      Lacking s t (.role (Text.strip t))

end Requirement

theorem Server.findTextChannel_eq_none {s : Server} {name : Text} :
    s.findTextChannel name = none ↔ ∀ c ∈ s.channels, c.type = "text".toList → c.name ≠ name := by
  unfold findTextChannel
  rw [List.find?_eq_none]
  constructor
  · intro none c member kind same
    exact none c member (decide_eq_true ⟨same, kind⟩)
  · intro unknown c member found
    obtain ⟨same, kind⟩ := of_decide_eq_true found
    exact unknown c member kind same

theorem Server.findRole_eq_none {s : Server} {name : Text} :
    s.findRole name = none ↔ ∀ r ∈ s.roles, r.name ≠ .text name := by
  unfold findRole
  simp only [List.find?_eq_none, Scalar.same_text_iff, ne_eq]

namespace Gate

open Requirement

variable {t : Text} {s : Snapshot}

/-- Whether one gate lets the author pass and the other denies. -/
def Opposed (t : Text) (s : Snapshot) : Prop :=
  (require t s = .ok () ∧ ∃ d, exclude t s = .error (.denied d)) ∨
    (∃ d, require t s = .error (.denied d)) ∧ exclude t s = .ok ()

theorem Decide.opposed {met : Prop} (h : Decide t s met) : Opposed t s := by
  by_cases meets : met
  · exact .inl (h.inside meets)
  · exact .inr (h.outside meets)

theorem decide_moderator (asked : ofText? t = some .moderator) :
    Decide t s (s.user.manageGuild = true) := by
  constructor
  · intro met
    simp [require, exclude, asked, met]
  · intro unmet
    simp [require, exclude, asked, unmet]

theorem of_lacking {a : Absence} (lacking : Lacking s.server t a) :
    require t s = .error (.absent a) ∧ exclude t s = .ok () := by
  cases lacking with
  | channel written unknown =>
    have asked := ofText?_channel written
    have none := Server.findTextChannel_eq_none.mpr unknown
    simp only [require, exclude, asked, none, and_self]
  | role written other unmarked unknown =>
    have asked := ofText?_role written other unmarked
    have none := Server.findRole_eq_none.mpr unknown
    simp only [require, exclude, asked, none, and_self]

theorem opposed_of_present (written : Text.strip t ≠ []) (present : ∀ a, ¬Lacking s.server t a) :
    Opposed t s := by
  by_cases moderator : Text.strip t = moderatorWord
  · exact (decide_moderator (ofText?_moderator moderator)).opposed
  by_cases marked : (Text.strip t).head? = some '#'
  · obtain ⟨name, form⟩ := List.head?_eq_some_iff.mp marked
    cases found : s.server.findTextChannel name with
    | none => exact absurd (.channel form (Server.findTextChannel_eq_none.mp found)) (present _)
    | some c => exact (decide_channel (ofText?_channel form) found).opposed
  · cases found : s.server.findRole (Text.strip t) with
    | none =>
      have unknown := Server.findRole_eq_none.mp found
      exact absurd (.role written moderator marked unknown) (present _)
    | some r => exact (decide_role (ofText?_role written moderator marked) found).opposed

/-- The gates refuse a blank requirement, part over what the server lacks, and are opposites in
every other case. -/
theorem gates_complement (t : Text) (s : Snapshot) :
    (Text.blank t = true →
      require t s = .error (.instruction (.missingRequirement "require".toList)) ∧
      exclude t s = .error (.instruction (.missingRequirement "not".toList))) ∧
    (∀ a, Lacking s.server t a → require t s = .error (.absent a) ∧ exclude t s = .ok ()) ∧
    (Text.blank t = false → (∀ a, ¬Lacking s.server t a) → Opposed t s) := by
  constructor
  · intro blank
    simp only [require, exclude, ofText?_blank blank, and_self]
  constructor
  · exact fun a lacking => of_lacking lacking
  · intro shown
    apply opposed_of_present
    exact fun nothing => absurd (List.isEmpty_iff.mpr nothing) (Bool.eq_false_iff.mp shown)

end Gate

end ChatCommands
